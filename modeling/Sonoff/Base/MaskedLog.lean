import Mathlib.Data.List.Nodup
import Mathlib.Tactic.Common

/-! # Logs with masked entries

A log of key-value entries that grows at its end. An entry is removed by masking
it, and a full log is compacted: its masked entries go and the others keep their
order. Below the capacity of a compacted log such a log takes exactly the pairs
that a list of pairs of the same capacity takes, so what is masked costs nothing.
-/
namespace Sonoff.MaskedLog

variable {κ ν : Type*}

structure Entry (κ ν : Type*) where
  live : Bool
  key : κ
  value : ν
  deriving DecidableEq, Repr

def total (len : ν → ℕ) : List (Entry κ ν) → ℕ
  | [] => 0
  | e :: log => len e.value + total len log

def pairs (log : List (Entry κ ν)) : List (κ × ν) := (log.filter (·.live)).map fun e =>
    (e.key, e.value)

def pairsTotal (len : ν → ℕ) : List (κ × ν) → ℕ
  | [] => 0
  | p :: ps => len p.2 + pairsTotal len ps

variable (len : ν → ℕ) (capacity room : ℕ)

@[simp] theorem total_nil : total len ([] : List (Entry κ ν)) = 0 := rfl

@[simp] theorem total_cons (e : Entry κ ν) (log : List (Entry κ ν)) :
  total len (e :: log) = len e.value + total len log := rfl

@[simp] theorem total_append (log log' : List (Entry κ ν)) :
    total len (log ++ log') = total len log + total len log' := by
  induction log with
  | nil => simp
  | cons e log ih => simp [ih, Nat.add_assoc]

@[simp] theorem pairs_nil : pairs ([] : List (Entry κ ν)) = [] := rfl

@[simp] theorem pairs_append (log log' : List (Entry κ ν)) :
    pairs (log ++ log') = pairs log ++ pairs log' := by
  simp [pairs]

theorem pairs_cons (e : Entry κ ν) (log : List (Entry κ ν)) :
    pairs (e :: log) = if e.live then (e.key, e.value) :: pairs log else pairs log := by
  cases h : e.live <;> simp [pairs, h]

theorem pairs_filter_live (log : List (Entry κ ν)) : pairs (log.filter (·.live)) = pairs log := by
  simp [pairs]

theorem pairs_length_le (log : List (Entry κ ν)) : (pairs log).length ≤ log.length := by
  simpa [pairs] using List.length_filter_le _ log

theorem pairsTotal_pairs_le (log : List (Entry κ ν)) :
    pairsTotal len (pairs log) ≤ total len log := by
  induction log with
  | nil => exact Nat.le_refl _
  | cons e log ih =>
    rw [pairs_cons, total_cons]
    split
    · simpa [pairsTotal] using ih
    · exact Nat.le_trans ih (Nat.le_add_left _ _)

theorem total_filter_live (log : List (Entry κ ν)) :
    total len (log.filter (·.live)) = pairsTotal len (pairs log) := by
  induction log with
  | nil => rfl
  | cons e log ih =>
    rw [pairs_cons, List.filter_cons]
    cases e.live with
    | true => rw [if_pos rfl, if_pos rfl, total_cons, pairsTotal, ih]
    | false => simpa using ih

/-- Without masked entries every entry counts. -/
theorem pairs_length_eq {log : List (Entry κ ν)} (h : ∀ e ∈ log, e.live = true) :
    (pairs log).length = log.length := by
  simp only [pairs, List.length_map]
  rw [List.filter_eq_self.mpr h]

theorem pairs_length_lt {log : List (Entry κ ν)} {e : Entry κ ν} (h : e ∈ log)
    (hmasked : e.live = false) : (pairs log).length < log.length := by
  simp only [pairs, List.length_map]
  apply List.length_filter_lt_length_iff_exists.mpr
  exact ⟨e, h, by simp [hmasked]⟩

/-- The compacted log with one more entry, if that fits. -/
def compact (log : List (Entry κ ν)) (k : κ) (v : ν) : Bool × List (Entry κ ν) :=
  let kept := log.filter (·.live)
  if total len kept + len v < room then (true, kept ++ [⟨true, k, v⟩]) else (false, kept)

/-- One more entry, behind the last one or in the compacted log. -/
def append (log : List (Entry κ ν)) (k : κ) (v : ν) : Bool × List (Entry κ ν) :=
  if log.length < capacity then
    if total len log + len v < room then (true, log ++ [⟨true, k, v⟩]) else compact len room log k v
  else if ∃ e ∈ log, e.live = false then compact len room log k v
  else (false, log)

/-- A pair fits among others, in a list that holds `capacity` pairs and less than `room` bytes. -/
def Fits (ps : List (κ × ν)) (v : ν) : Prop := ps.length < capacity ∧
    pairsTotal len ps + len v < room

instance (ps : List (κ × ν)) (v : ν) : Decidable (Fits len capacity room ps v) := instDecidableAnd

variable {len capacity room} {log : List (Entry κ ν)} {k : κ} {v : ν}

theorem pairs_compact :
    pairs (compact len room log k v).2 =
      if pairsTotal len (pairs log) + len v < room then pairs log ++ [(k, v)] else pairs log := by
  simp only [compact, total_filter_live]
  split <;> simp [pairs_filter_live, pairs_cons]

theorem compact_fst : (compact len room log k v).1 = true ↔
    pairsTotal len (pairs log) + len v < room := by
  simp only [compact, total_filter_live]
  split <;> simp_all

/-- Appending succeeds exactly where the pairs that are not masked leave room. -/
theorem append_fst (hle : log.length ≤ capacity) :
    (append len capacity room log k v).1 = true ↔ Fits len capacity room (pairs log) v := by
  have hlen := pairs_length_le log
  have htotal := pairsTotal_pairs_le len log
  unfold append Fits
  split
  · split
    · constructor
      · intro _
        omega
      · intro _
        rfl
    · rw [compact_fst]
      omega
  · split
    case isTrue hmasked =>
      obtain ⟨e, he, hlive⟩ := hmasked
      have := pairs_length_lt he hlive
      rw [compact_fst]
      omega
    case isFalse hmasked =>
      have hall : ∀ e ∈ log, e.live = true := by
        intro e he
        by_contra hl
        exact hmasked ⟨e, he, by simpa using hl⟩
      have := pairs_length_eq hall
      constructor
      · intro h
        cases h
      · intro h
        omega

theorem pairs_append_snd (hle : log.length ≤ capacity) :
    pairs (append len capacity room log k v).2 =
      if Fits len capacity room (pairs log) v then pairs log ++ [(k, v)] else pairs log := by
  have hfst : (append len capacity room log k v).1 = true ↔ _ := append_fst hle
  unfold append at hfst ⊢
  split
  case isTrue hslot =>
    rw [if_pos hslot] at hfst
    split
    case isTrue hfit =>
      rw [if_pos hfit] at hfst
      rw [if_pos (hfst.mp rfl)]
      simp [pairs_cons]
    case isFalse hfit =>
      rw [if_neg hfit, compact_fst] at hfst
      rw [pairs_compact]
      simp only [hfst]
  case isFalse hslot =>
    rw [if_neg hslot] at hfst
    split
    case isTrue hmasked =>
      rw [if_pos hmasked, compact_fst] at hfst
      rw [pairs_compact]
      simp only [hfst]
    case isFalse hmasked =>
      rw [if_neg hmasked] at hfst
      rw [if_neg fun h => Bool.false_ne_true (hfst.mpr h)]

theorem length_append_snd (hle : log.length ≤ capacity) :
    (append len capacity room log k v).2.length ≤ capacity := by
  have hkept := List.length_filter_le (fun e : Entry κ ν => e.live) log
  simp only [append]
  split
  · split
    · simp only [List.length_append, List.length_singleton]
      omega
    · simp only [compact]
      split
      · simp only [List.length_append, List.length_singleton]
        omega
      · exact Nat.le_trans hkept hle
  · split
    case isTrue hmasked =>
      obtain ⟨e, he, hlive⟩ := hmasked
      have hlt := pairs_length_lt he hlive
      simp only [pairs, List.length_map] at hlt
      simp only [compact]
      split
      · simp only [List.length_append, List.length_singleton]
        omega
      · exact Nat.le_trans hkept hle
    case isFalse => exact hle

theorem total_append_snd (hlt : total len log < room) :
    total len (append len capacity room log k v).2 < room := by
  have hkept : total len (log.filter (·.live)) < room := by
    rw [total_filter_live]
    exact Nat.lt_of_le_of_lt (pairsTotal_pairs_le len log) hlt
  have hcompact : total len (compact len room log k v).2 < room := by
    simp only [compact]
    split
    case isTrue hfit =>
      simpa using hfit
    case isFalse => exact hkept
  simp only [append]
  split
  · split
    case isTrue hfit =>
      simpa using hfit
    case isFalse => exact hcompact
  · split
    · exact hcompact
    · exact hlt

theorem nodup_filter_keys {ps : List (κ × ν)} (h : (ps.map Prod.fst).Nodup) (q : κ × ν → Bool) :
    ((ps.filter q).map Prod.fst).Nodup :=
  h.sublist (List.filter_sublist.map _)

section Mask

variable [BEq κ] [LawfulBEq κ]

/-- Masking the one live entry of a key removes its pair. -/
theorem pairs_mask {before after : List (Entry κ ν)}
    (hnodup : ((pairs (before ++ ⟨true, k, v⟩ :: after)).map
    Prod.fst).Nodup) :
    pairs (before ++ ⟨false, k, v⟩ :: after) =
      (pairs (before ++ ⟨true, k, v⟩ :: after)).filter fun p => p.1 != k := by
  simp only [pairs_append, pairs_cons, if_true, Bool.false_eq_true, if_false, List.map_append,
    List.map_cons] at hnodup ⊢
  rw [List.nodup_middle, List.nodup_cons, List.mem_append, not_or] at hnodup
  have hkeep : ∀ ps : List (κ × ν), k ∉ ps.map Prod.fst → ps.filter (fun p => p.1 != k) = ps := by
    intro ps hps
    apply List.filter_eq_self.mpr
    intro p hp
    have hpk : ¬p.1 = k := fun hpk => hps (hpk ▸ List.mem_map_of_mem hp)
    simpa using hpk
  rw [List.filter_append, List.filter_cons_of_neg (by simp), hkeep _ hnodup.1.1, hkeep _ hnodup.1.2]

theorem lookup_filter_ne {k' : κ} (ps : List (κ × ν)) (h : k' ≠ k) :
    (ps.filter fun p => p.1 != k).lookup k' = ps.lookup k' := by
  induction ps with
  | nil => rfl
  | cons p ps ih =>
    obtain ⟨k₁, v₁⟩ := p
    by_cases hk : k₁ = k
    · subst hk
      rw [List.filter_cons_of_neg (by simp), ih, List.lookup_cons,
        show (k' == k₁) = false by simpa using h]
    · rw [List.filter_cons_of_pos (by simpa using hk), List.lookup_cons, List.lookup_cons, ih]

theorem lookup_filter_self (ps : List (κ × ν)) (k : κ) :
    (ps.filter fun p => p.1 != k).lookup k = none := by
  rw [List.lookup_eq_none_iff]
  intro p hp
  have hne := (List.mem_filter.mp hp).2
  simp only [bne_iff_ne, ne_eq] at hne
  simpa using fun h => hne h.symm

theorem lookup_eq_none_of_notMem {ps : List (κ × ν)} (h : k ∉ ps.map Prod.fst) :
    ps.lookup k = none := by
  rw [List.lookup_eq_none_iff]
  intro p hp
  have hne : ¬k = p.1 := fun hkp => h (hkp ▸ List.mem_map_of_mem hp)
  simpa using hne

/-- A pair behind pairs of other keys. -/
theorem lookup_concat_ne {ps : List (κ × ν)} {k' : κ} (h : k' ≠ k) :
    (ps ++ [(k, v)]).lookup k' = ps.lookup k' := by
  have hsingle : [(k, v)].lookup k' = none := by
    rw [List.lookup_cons, show (k' == k) = false by simpa using h]
    rfl
  rw [List.lookup_append, hsingle, Option.or_none]

theorem lookup_concat_self {ps : List (κ × ν)} (h : ps.lookup k = none) :
    (ps ++ [(k, v)]).lookup k = some v := by
  rw [List.lookup_append, h]
  simp

theorem nodup_concat_keys {ps : List (κ × ν)} (hnodup : (ps.map Prod.fst).Nodup)
    (h : ps.lookup k = none) : ((ps ++ [(k, v)]).map Prod.fst).Nodup := by
  rw [List.map_append, List.nodup_append]
  refine ⟨hnodup, by simp, ?_⟩
  intro k₁ hk₁ k₂ hk₂ heq
  obtain ⟨p, hp, rfl⟩ := List.mem_map.mp hk₁
  have hne := List.lookup_eq_none_iff.mp h p hp
  simp only [bne_iff_ne, ne_eq] at hne
  exact hne (heq.trans (by simpa using hk₂)).symm

/-- A reader that takes the first live entry of a key takes its pair. -/
theorem lookup_pairs_entry {before after : List (Entry κ ν)}
    (hnodup : ((pairs (before ++ ⟨true, k, v⟩ :: after)).map Prod.fst).Nodup) :
    (pairs (before ++ ⟨true, k, v⟩ :: after)).lookup k = some v := by
  simp only [pairs_append, pairs_cons, if_true, List.map_append, List.map_cons] at hnodup ⊢
  rw [List.nodup_middle, List.nodup_cons, List.mem_append, not_or] at hnodup
  rw [List.lookup_append, lookup_eq_none_of_notMem hnodup.1.1, List.lookup_cons_self]
  rfl

end Mask

section Put

variable [BEq κ] [LawfulBEq κ] [DecidableEq ν]

/-- A pair is replaced by dropping it and adding the new one at the end; where that does not fit
the old pair is gone. -/
def put (len : ν → ℕ) (capacity room : ℕ) (ps : List (κ × ν)) (k : κ) (v : ν) :
    Bool × List (κ × ν) :=
  if ps.lookup k = some v then (true, ps)
  else
    let others := ps.filter fun p => p.1 != k
    if Fits len capacity room others v then (true, others ++ [(k, v)]) else (false, others)

variable {ps : List (κ × ν)} {k' : κ}

omit [LawfulBEq κ] in
theorem put_same (h : ps.lookup k = some v) : put len capacity room ps k v = (true, ps) := if_pos h

theorem put_fresh (h : ps.lookup k = none) :
    put len capacity room ps k v = if Fits len capacity room ps v then (true, ps ++ [(k, v)])
      else (false, ps) := by
  have hothers : ps.filter (fun p => p.1 != k) = ps := by
    apply List.filter_eq_self.mpr
    intro p hp
    have hne := List.lookup_eq_none_iff.mp h p hp
    simp only [bne_iff_ne, ne_eq] at hne
    simpa using fun heq => hne heq.symm
  simp [put, h, hothers]

/-- The old pair is dropped first. -/
theorem put_filter (h : ps.lookup k ≠ some v) :
    put len capacity room ps k v = put len capacity room (ps.filter fun p => p.1 != k) k v := by
  rw [put_fresh (lookup_filter_self ps k), put, if_neg h]

/-- Other keys keep their values, whether the pair fits or not. -/
theorem lookup_put_other (h : k' ≠ k) :
    (put len capacity room ps k v).2.lookup k' = ps.lookup k' := by
  simp only [put]
  split
  · rfl
  · split
    · rw [lookup_concat_ne h, lookup_filter_ne ps h]
    · exact lookup_filter_ne ps h

theorem lookup_put_self (h : (put len capacity room ps k v).1 = true) :
    (put len capacity room ps k v).2.lookup k = some v := by
  simp only [put] at h ⊢
  split
  case isTrue => assumption
  case isFalse hne =>
    rw [if_neg hne] at h
    split
    case isTrue => exact lookup_concat_self (lookup_filter_self ps k)
    case isFalse hfit =>
      rw [if_neg hfit] at h
      cases h

/-- A pair that does not fit leaves its key without a value. -/
theorem lookup_put_failed (h : (put len capacity room ps k v).1 = false) :
    (put len capacity room ps k v).2.lookup k = none := by
  simp only [put] at h ⊢
  split
  case isTrue heq =>
    rw [if_pos heq] at h
    cases h
  case isFalse hne =>
    rw [if_neg hne] at h
    split
    case isTrue hfit =>
      rw [if_pos hfit] at h
      cases h
    case isFalse => exact lookup_filter_self ps k

theorem nodup_put (h : (ps.map Prod.fst).Nodup) :
    ((put len capacity room ps k v).2.map Prod.fst).Nodup := by
  have hothers := nodup_filter_keys h fun p => p.1 != k
  simp only [put]
  split
  · exact h
  · split
    · exact nodup_concat_keys hothers (lookup_filter_self ps k)
    · exact hothers

end Put

end Sonoff.MaskedLog
