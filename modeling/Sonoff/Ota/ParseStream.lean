import Sonoff.Ota.ParseAdvance

/-! # The parser as a byte machine

`feedBytes` hands the parser one byte at a time. A piece that stays inside the
room of its stage has the effect of one `absorb` followed by one stage advance,
and so has every call of `snfOtaParseData`; the calls of any chunking therefore
add up to `feedBytes` of the whole input.
-/
namespace Sonoff.OtaParse
open Bytes AesGcm Ota SnfOtaParseContext

variable {G : Type} {sdk : Sdk G}

def SnfOtaPayload.placed (payload : SnfOtaPayload) :
    List (UInt8 × ℕ) := payload.data.zipIdx payload.offset

theorem absorbImage_append (hinc : sdk.Incremental) {c c₁ c₂ : SnfOtaParseContext G}
    {x y : List UInt8} {p₁ p₂ : SnfOtaPayload} (h₁ : absorbImage sdk c x = .ok (c₁, p₁))
    (h₂ : absorbImage sdk c₁ y = .ok (c₂, p₂)) :
    absorbImage sdk c (x ++ y) = .ok (c₂, ⟨p₁.data ++ p₂.data, p₁.offset⟩) := by
  cases hg : c.isGcm with
  | false =>
    simp only [absorbImage, hg, Bool.false_eq_true, if_false, Except.ok.injEq, Prod.mk.injEq] at h₁
    obtain ⟨hc,hp⟩ := h₁
    subst hc hp
    have hg' : isGcm { c with fileCrc := snfCrc32 sdk c.fileCrc x, offset := c.offset + x.length } =
      false := hg
    simp only [absorbImage, hg', Bool.false_eq_true, if_false, Except.ok.injEq, Prod.mk.injEq] at h₂
    obtain ⟨hc,hp⟩ := h₂
    subst hc hp
    simp [absorbImage, hg, hinc.snfCrc32_append, Nat.add_assoc]
  | true =>
    cases hgcm : c.gcm with
    | none => simp [absorbImage, hg, hgcm] at h₁
    | some gcm =>
      cases hu₁ : snfAesGcmDecryptUpdate sdk gcm x with
      | error e => simp [absorbImage, hg, hgcm, hu₁] at h₁
      | ok r₁ =>
        obtain ⟨gcm₁,out₁⟩ := r₁
        simp only [absorbImage, hg, if_true, hgcm, hu₁, Except.ok.injEq, Prod.mk.injEq] at h₁
        obtain ⟨hc,hp⟩ := h₁
        have hg' : c₁.isGcm = true := by
          subst hc
          exact hg
        have hgcm₁ : c₁.gcm = some gcm₁ := by
          subst hc
          rfl
        cases hu₂ : snfAesGcmDecryptUpdate sdk gcm₁ y with
        | error e => simp [absorbImage, hg', hgcm₁, hu₂] at h₂
        | ok r₂ =>
          obtain ⟨gcm₂,out₂⟩ := r₂
          simp only [absorbImage, hg', if_true, hgcm₁, hu₂, Except.ok.injEq, Prod.mk.injEq] at h₂
          obtain ⟨hc₂,hp₂⟩ := h₂
          have hu := hinc.decryptUpdate_append hu₁ hu₂
          subst hc hp hc₂ hp₂
          simp [absorbImage, hg, hgcm, hu, hinc.snfCrc32_append, Nat.add_assoc]

theorem absorb_append (hinc : sdk.Incremental) {c c₁ c₂ : SnfOtaParseContext G} {x y : List UInt8}
    {p₁ p₂ : SnfOtaPayload} (hv : c.StageValid) (h₁ : absorb sdk c x = .ok (c₁, p₁))
    (h₂ : absorb sdk c₁ y = .ok (c₂, p₂)) :
    ∃ p, absorb sdk c (x ++ y) = .ok (c₂, p) ∧ p.placed = p₁.placed ++ p₂.placed := by
  have hsame := (absorb_spec h₁).1
  unfold absorb at h₁ h₂ ⊢
  rw [hsame.stage] at h₂
  split
  case isTrue hi =>
    rw [if_pos hi] at h₁ h₂
    refine ⟨_, absorbImage_append hinc h₁ h₂, ?_⟩
    simp only [StageValid, hi] at hv
    obtain ⟨_,_,ho₁,hl₁,hp₁,_,_⟩ := absorbImage_spec h₁
    obtain ⟨_,_,_,_,hp₂,_,_⟩ := absorbImage_spec h₂
    rw [hsame.contentStart, ho₁] at hp₂
    have hoff : p₂.offset = p₁.offset + p₁.data.length := by omega
    simp [SnfOtaPayload.placed, List.zipIdx_append, hoff]
  case isFalse hi =>
    rw [if_neg hi] at h₁ h₂
    cases h₁
    cases h₂
    refine ⟨⟨[], 0⟩, ?_, rfl⟩
    simp only [absorbField, List.length_append, Except.ok.injEq, Prod.mk.injEq, and_true]
    split <;> simp [Nat.add_assoc]

/-- One byte at a time until the first error: the final context and everything
the payloads place in the partition. -/
def feedBytes (sdk : Sdk G) : SnfOtaParseContext G → List UInt8 →
    SnfOtaParseContext G × List (UInt8 × ℕ)
  | c, [] => (c, [])
  | c, b :: bs =>
    let r := snfOtaParseData sdk c [b]
    if r.error = .none then
      let rest := feedBytes sdk r.context bs
      (rest.1, r.payload.placed ++ rest.2)
    else (r.context, [])

theorem snfOtaParseFinish_of_error {c : SnfOtaParseContext G} (he : c.error ≠ .none) :
    snfOtaParseFinish c = c.error := if_pos he

theorem feedBytes_of_error {c : SnfOtaParseContext G} (he : c.error ≠ .none) (x : List UInt8) :
    feedBytes sdk c x = (c, []) := by
  cases x with
  | nil => rfl
  | cons b bs => simp [feedBytes, snfOtaParseData, he]

variable (sdk) in
theorem snfOtaParseData_error (c : SnfOtaParseContext G) (x : List UInt8) :
    (snfOtaParseData sdk c x).error = (snfOtaParseData sdk c x).context.error := by
  unfold snfOtaParseData
  dsimp only
  split
  · rfl
  · split
    · rfl
    · split
      · split <;> rfl
      · rfl

variable (sdk) in
/-- Feeding is the same however the input is cut. -/
theorem feedBytes_append (c : SnfOtaParseContext G) (x y : List UInt8) : feedBytes sdk c (x ++ y) =
    ((feedBytes sdk (feedBytes sdk c x).1 y).1,
      (feedBytes sdk c x).2 ++ (feedBytes sdk (feedBytes sdk c x).1 y).2) := by
  induction x generalizing c with
  | nil => rfl
  | cons b bs ih =>
    simp only [List.cons_append, feedBytes]
    split
    case isTrue =>
      rw [ih]
      simp only [List.append_assoc]
    case isFalse he =>
      rw [snfOtaParseData_error] at he
      simp [feedBytes_of_error he]

theorem advance_error_of_image {c : SnfOtaParseContext G} (hi : c.stage = .image) :
    (advance sdk c).error = c.error := by
  simp only [advance, otaAdvanceStage, hi, headerSizeOf, ne_eq, not_true_eq_false, false_and,
    if_false, if_true]
  split <;> rfl

/-- Only the content stage places bytes, and its advance records no error. -/
theorem absorb_placed {c c' : SnfOtaParseContext G} {x : List UInt8} {payload : SnfOtaPayload}
    (he : c.error = .none) (ha : absorb sdk c x = .ok (c', payload)) :
    payload.placed = [] ∨ (advance sdk c').error = .none := by
  have hsame := (absorb_spec ha).1
  unfold absorb at ha
  split at ha
  case isTrue hi =>
    exact Or.inr ((advance_error_of_image (hsame.stage.trans hi)).trans (hsame.error.trans he))
  case isFalse =>
    cases ha
    exact Or.inl rfl

theorem feedBytes_singleton {c c' : SnfOtaParseContext G} (h : c.Valid) (he : c.error = .none)
    (hr : c.offset < c.packageSize) {b : UInt8} {payload : SnfOtaPayload}
    (ha : absorb sdk c [b] = .ok (c', payload)) :
    feedBytes sdk c [b] = (advance sdk c', payload.placed) := by
  obtain ⟨t,h0,h1,_,hd⟩ := snfOtaParseData_eq sdk h he (List.cons_ne_nil b []) (by simp; omega)
  have ht : t = 1 := Nat.le_antisymm h1 h0
  simp only [ht, List.take_succ_cons, List.take_nil, afterAbsorb, ha] at hd
  simp only [feedBytes, hd, List.append_nil]
  rcases absorb_placed he ha with hp | herr
  · simp [hp]
  · simp [herr]

/-- A piece inside the room of its stage, whatever its length, is one absorb and
one advance. -/
theorem feedBytes_room (hinc : sdk.Incremental) {x : List UInt8} (hx : x ≠ []) :
    ∀ {c : SnfOtaParseContext G}, c.Valid → c.error = .none → x.length ≤ c.room →
      ∃ c' payload, absorb sdk c x = .ok (c', payload) ∧
        feedBytes sdk c x = (advance sdk c', payload.placed) := by
  induction x with
  | nil => exact absurd rfl hx
  | cons b y ih =>
    intro c h he hroom
    have hle := h.room_le he
    simp only [List.length_cons] at hroom
    obtain ⟨c₁,p₁,h₁⟩ := absorb_total hinc h he (List.cons_ne_nil b [])
    have hb := feedBytes_singleton h he (by omega) h₁
    by_cases hy : y = []
    · subst hy
      exact ⟨c₁, p₁, h₁, hb⟩
    · have hypos := List.length_pos_iff.mpr hy
      have hv₁ := absorb_valid h he h₁ (by simp; omega)
      have hroom₁ := absorb_room h₁
      simp only [List.length_cons, List.length_nil] at hroom₁
      have hstay := advance_of_room sdk (show 0 < c₁.room by omega)
      obtain ⟨c₂,p₂,h₂,hf₂⟩ := ih hy hv₁ ((absorb_spec h₁).1.error.trans he) (by omega)
      obtain ⟨p,hp,hplaced⟩ := absorb_append hinc (h.stage he) h₁ h₂
      refine ⟨c₂, p, hp, ?_⟩
      have happ := feedBytes_append sdk c [b] y
      rw [hb, hstay, hf₂, ← hplaced] at happ
      exact happ

/-- What one call of the parser amounts to: the bytes it consumed, fed one at a time. -/
structure CallSpec (sdk : Sdk G) (c : SnfOtaParseContext G) (data : List UInt8) (t : ℕ) : Prop where
  pos : 0 < t
  le : t ≤ data.length
  fed : feedBytes sdk c (data.take t) =
    ((snfOtaParseData sdk c data).context, (snfOtaParseData sdk c data).payload.placed)
  consumed : (snfOtaParseData sdk c data).consumed = t
  valid : (snfOtaParseData sdk c data).context.Valid
  input : (snfOtaParseData sdk c data).context.packageSize = c.packageSize
    ∧ (snfOtaParseData sdk c data).context.offset = c.offset + t
  placed : (snfOtaParseData sdk c data).payload.placed = [] ∨
    (snfOtaParseData sdk c data).error = .none
  emitted : (snfOtaParseData sdk c data).context.emittedSize =
    c.emittedSize + (snfOtaParseData sdk c data).payload.size
  next : (snfOtaParseData sdk c data).payload.data = []
    ∨ (snfOtaParseData sdk c data).payload.offset = c.emittedSize
  inside : (snfOtaParseData sdk c data).payload.offset + (snfOtaParseData sdk c data).payload.size
    ≤ c.packageSize

theorem snfOtaParseData_callSpec (hinc : sdk.Incremental) {c : SnfOtaParseContext G} (h : c.Valid)
    (he : c.error = .none) {data : List UInt8} (hd : data ≠ [])
    (hn : data.length ≤ c.packageSize - c.offset) :
    ∃ t, CallSpec sdk c data t := by
  obtain ⟨t,hpos,hle,hroom,hcall⟩ := snfOtaParseData_eq sdk h he hd hn
  have hlen : (data.take t).length = t := by
    rw [List.length_take]
    omega
  have hne : data.take t ≠ [] := List.ne_nil_of_length_pos (by omega)
  obtain ⟨c',payload,ha,hf⟩ := feedBytes_room hinc hne h he (by omega)
  obtain ⟨hsame,ho,_⟩ := absorb_spec ha
  have hkeep := advance_sameInput sdk c'
  have hv := advance_absorb_valid h he ha (by omega)
  have hp := absorb_placed he ha
  have hin := h.room_le he
  obtain ⟨hem,hnext,hbound⟩ := absorb_emittedSize (h.stage he) ha
  have hadv := @advance_emittedSize _ sdk _ (absorb_stageValid h he ha (by omega))
  simp only [afterAbsorb, ha] at hcall
  refine ⟨t, hpos, hle, ?_, ?_, ?_, ?_, ?_, ?_, ?_, ?_⟩
  · rw [hf, hcall]
  · rw [hcall, hlen]
  · rw [hcall]
    exact hv
  · rw [hcall]
    exact ⟨hkeep.packageSize.trans hsame.packageSize, by rw [hkeep.offset, ho, hlen]⟩
  · rw [hcall]
    exact hp
  · rw [hcall]
    exact hadv.trans hem
  · rw [hcall]
    exact hnext
  · rw [hcall]
    exact Nat.le_trans hbound (by omega)

/-- Feeding inside the package keeps the invariant. -/
theorem feedBytes_valid (hinc : sdk.Incremental) {x : List UInt8} {c : SnfOtaParseContext G}
    (h : c.Valid) (hn : c.error = .none → x.length ≤ c.packageSize - c.offset) :
    (feedBytes sdk c x).1.Valid := by
  induction x generalizing c with
  | nil => exact h
  | cons b bs ih =>
    by_cases he : c.error = .none
    · have hlen := hn he
      rw [List.length_cons] at hlen
      obtain ⟨t,hcall⟩ :=
        snfOtaParseData_callSpec hinc h he (List.cons_ne_nil b []) (by simp; omega)
      have hpos := hcall.pos
      have hle := hcall.le
      have ht : t = 1 := Nat.le_antisymm hle hpos
      obtain ⟨hsize,hoff⟩ := hcall.input
      simp only [feedBytes]
      split
      · exact ih hcall.valid (fun _ => by rw [hsize, hoff]; omega)
      · exact hcall.valid
    · rw [feedBytes_of_error he]
      exact h

theorem feedBytes_error_none {x : List UInt8} {c : SnfOtaParseContext G}
    (h : (feedBytes sdk c x).1.error = .none) : c.error = .none := by
  by_contra he
  rw [feedBytes_of_error he] at h
  exact he h

/-- Without an error every byte was consumed. -/
theorem feedBytes_input (hinc : sdk.Incremental) {x : List UInt8} {c : SnfOtaParseContext G}
    (h : c.Valid) (hn : c.error = .none → x.length ≤ c.packageSize - c.offset)
    (hok : (feedBytes sdk c x).1.error = .none) :
    (feedBytes sdk c x).1.packageSize = c.packageSize ∧
      (feedBytes sdk c x).1.offset = c.offset + x.length := by
  induction x generalizing c with
  | nil => exact ⟨rfl, rfl⟩
  | cons b bs ih =>
    have he := feedBytes_error_none hok
    have hlen := hn he
    rw [List.length_cons] at hlen
    obtain ⟨t,hcall⟩ := snfOtaParseData_callSpec hinc h he (List.cons_ne_nil b []) (by simp; omega)
    have ht : t = 1 := Nat.le_antisymm hcall.le hcall.pos
    obtain ⟨hsize,hoff⟩ := hcall.input
    simp only [feedBytes] at hok ⊢
    split at hok
    case isTrue hr =>
      rw [if_pos hr]
      obtain ⟨h₁,h₂⟩ := ih hcall.valid (fun _ => by rw [hsize, hoff]; omega) hok
      exact ⟨h₁.trans hsize, by rw [h₂, hoff, List.length_cons]; omega⟩
    case isFalse hr =>
      rw [snfOtaParseData_error] at hr
      exact absurd hok hr

/-- The calling loop over one chunk, until the chunk is consumed or an error is
recorded; `none` says that the fuel ran out first. -/
def feedChunk (sdk : Sdk G) : ℕ → SnfOtaParseContext G → List UInt8 →
    Option (SnfOtaParseContext G × List SnfOtaPayload)
  | 0, _, _ => none
  | fuel + 1, c, data =>
    if data = [] then some (c, [])
    else
      let r := snfOtaParseData sdk c data
      if r.error ≠ .none then some (r.context, [])
      else (feedChunk sdk fuel r.context (data.drop r.consumed)).map fun rest =>
        (rest.1, r.payload :: rest.2)

def placedOf (payloads : List SnfOtaPayload) :
    List (UInt8 × ℕ) := payloads.flatMap SnfOtaPayload.placed

/-- The loop always ends, and feeds exactly the bytes of the chunk. -/
theorem feedChunk_eq (hinc : sdk.Incremental) {fuel : ℕ} {c : SnfOtaParseContext G} (h : c.Valid)
    {data : List UInt8} (hn : c.error = .none → data.length ≤ c.packageSize - c.offset)
    (hfuel : data.length < fuel) :
    ∃ payloads, feedChunk sdk fuel c data = some ((feedBytes sdk c data).1, payloads)
      ∧ placedOf payloads = (feedBytes sdk c data).2 := by
  induction fuel generalizing c data with
  | zero => omega
  | succ fuel ih =>
    unfold feedChunk
    by_cases hd : data = []
    · subst hd
      exact ⟨[], by simp [feedBytes], rfl⟩
    · rw [if_neg hd]
      dsimp only
      by_cases he : c.error = .none
      · obtain ⟨t,hcall⟩ := snfOtaParseData_callSpec hinc h he hd (hn he)
        have hsplit := feedBytes_append sdk c (data.take t) (data.drop t)
        rw [List.take_append_drop, hcall.fed] at hsplit
        dsimp only at hsplit
        have herr := snfOtaParseData_error sdk c data
        split
        case isTrue hfail =>
          rw [herr] at hfail
          have hp := hcall.placed.resolve_right (by rwa [herr])
          rw [feedBytes_of_error hfail] at hsplit
          exact ⟨[], by rw [hsplit], by rw [hsplit, hp]; rfl⟩
        case isFalse hok =>
          obtain ⟨hsize,hoff⟩ := hcall.input
          have hnd := hn he
          have hle := hcall.le
          have hpos := hcall.pos
          obtain ⟨ps,hps,hplaced⟩ := @ih _ hcall.valid (data.drop t)
            (fun _ => by rw [List.length_drop, hsize, hoff]; omega)
            (by rw [List.length_drop]; omega)
          refine ⟨(snfOtaParseData sdk c data).payload :: ps, ?_, ?_⟩
          · rw [hcall.consumed, hps, hsplit]
            rfl
          · rw [hsplit, ← hplaced]
            rfl
      · have herr : (snfOtaParseData sdk c data).error = c.error := by simp [snfOtaParseData, he]
        have hctx : (snfOtaParseData sdk c data).context = c := by simp [snfOtaParseData, he]
        rw [if_pos (by rwa [herr]), hctx, feedBytes_of_error he]
        exact ⟨[], rfl, rfl⟩

end Sonoff.OtaParse
