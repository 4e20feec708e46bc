import Mathlib.Logic.Function.Basic
import Sonoff.Base.Fallible
import Sonoff.Nvdm.Text

/-! # The NVDM on EasyFlash

Group and key are joined to the name of a variable of EasyFlash. A call that
changes the flash ends with a result that the environment chooses for it; the
calls are counted, and a failed one leaves the variables as they were.
-/
namespace Sonoff.Nvdm
open Fallible

inductive EfErrCode
  | noErr
  | eraseErr
  | readErr
  | writeErr
  | envNameErr
  | envNameExist
  | envFull
  | envInitFailed
  deriving DecidableEq, Repr

/-- The limit of the names, and what each call that changes the flash comes to. -/
structure EasyFlash where
  efEnvNameMax : ℕ
  result : ℕ → EfErrCode

/-- The variables, and the number of calls so far that could have changed one. -/
structure EfState where
  env : CString → Option (List UInt8)
  calls : ℕ

abbrev EfM := EStateM Unit EfState

def EfState.counted (s : EfState) : EfState := { s with calls := s.calls + 1 }

def EfState.set (s : EfState) (name : CString) (value : Option (List UInt8)) : EfState :=
  { s with env := Function.update s.env name value }

@[simp] theorem EfState.set_self (s : EfState) (name : CString) (value : Option (List UInt8)) :
    (s.set name value).env name = value := Function.update_self ..

theorem EfState.set_of_ne (s : EfState) {name k : CString} (value : Option (List UInt8))
    (h : k ≠ name) : (s.set name value).env k = s.env k := Function.update_of_ne h ..

variable (flash : EasyFlash)

def bkSetEnvEnhance (name : CString) (value : List UInt8) : EStateM Unit EfState EfErrCode :=
  fun s =>
  if flash.result s.calls = .noErr then .ok .noErr (s.counted.set name (some value))
  else .ok (flash.result s.calls) s.counted

/-- A missing variable is an error of its own. -/
def efDelEnv (name : CString) : EStateM Unit EfState EfErrCode := fun s =>
  if flash.result s.calls = .noErr then
    if s.env name = none then .ok .envNameErr s.counted else .ok .noErr (s.counted.set name none)
  else .ok (flash.result s.calls) s.counted

def joinedKey (group key : CString) : CString :=
  ⟨group.chars ++ 46 :: key.chars, fun c hc => by
    rcases List.mem_append.mp hc with hc | hc
    · exact group.noNul c hc
    · rcases List.mem_cons.mp hc with rfl | hc
      · decide
      · exact key.noNul c hc⟩

def nvdmPortMakeKey (group key : CString) (outSize : ℕ) : Option CString :=
  if group.chars = [] ∨ key.chars = [] ∨ outSize = 0 then none
  else if (joinedKey group key).length ≤ 0 ∨ (joinedKey group key).length ≥ outSize then none
  else some (joinedKey group key)

def snfNvdmPortExistStatus (group key : CString) : EfM Bool := fun s =>
  match nvdmPortMakeKey group key (flash.efEnvNameMax + 1) with
  | none => .ok false s
  | some flashKey => .ok (s.env flashKey).isSome s

def snfNvdmPortWriteStr (group key : CString) (value : List UInt8) (len : ℤ) : EfM Unit := do
  require (0 < len) ()
  let flashKey ← ofOption (nvdmPortMakeKey group key (flash.efEnvNameMax + 1)) ()
  let result ← bkSetEnvEnhance flash flashKey (value.take len.toNat)
  require (result = .noErr) ()

def snfNvdmPortDelete (group key : CString) : EfM Unit := do
  let flashKey ← ofOption (nvdmPortMakeKey group key (flash.efEnvNameMax + 1)) ()
  let result ← efDelEnv flash flashKey
  require (result = .noErr ∨ result = .envNameErr) ()

variable {group group' key key' flashKey : CString} {outSize : ℕ}

theorem nvdmPortMakeKey_eq (h : nvdmPortMakeKey group key outSize = some flashKey) :
    flashKey = joinedKey group key := by
  unfold nvdmPortMakeKey at h
  split at h
  · cases h
  · split at h
    · cases h
    · exact (Option.some.inj h).symm

/-- The first dot of a name ends the group, where no group has a dot. -/
theorem joinedKey_injective (hg : (46 : UInt8) ∉ group.chars) (hg' : (46 : UInt8) ∉ group'.chars)
    (h : joinedKey group key = joinedKey group' key') : group = group' ∧ key = key' := by
  have hchars : group.chars ++ 46 :: key.chars = group'.chars ++ 46 :: key'.chars :=
    congrArg CString.chars h
  have hfront : ∀ {g k : List UInt8}, 46 ∉ g → (g ++ 46 :: k).takeWhile (· ≠ 46) = g := by
    intro g k hg
    rw [List.takeWhile_append_of_pos]
    · simp
    · intro c hc
      exact decide_eq_true fun he => hg (he ▸ hc)
  have hgroup : group.chars = group'.chars := by
    rw [← hfront hg, hchars, hfront hg']
  rw [hgroup] at hchars
  exact ⟨CString.eq_of_chars hgroup,
    CString.eq_of_chars (List.cons.inj (List.append_cancel_left hchars)).2⟩

theorem nvdmPortMakeKey_injective (hg : (46 : UInt8) ∉ group.chars)
    (hg' : (46 : UInt8) ∉ group'.chars)
    (h : nvdmPortMakeKey group key outSize = some flashKey)
    (h' : nvdmPortMakeKey group' key' outSize = some flashKey) :
    group = group' ∧ key = key' :=
  joinedKey_injective hg hg' ((nvdmPortMakeKey_eq h).symm.trans (nvdmPortMakeKey_eq h'))

variable {flash} {s : EfState}

theorem bkSetEnvEnhance_triple (name : CString) (value : List UInt8) :
    Triple (fun u => u = s) (bkSetEnvEnhance flash name value)
      (fun result u => result = .noErr ∧ u = s.counted.set name (some value) ∨ result ≠ .noErr ∧
        u.env = s.env)
      (fun _ _ => False) := by
  rintro u rfl
  unfold bkSetEnvEnhance
  by_cases hresult : flash.result u.calls = .noErr
  · rw [if_pos hresult]
    exact Or.inl ⟨rfl, rfl⟩
  · rw [if_neg hresult]
    exact Or.inr ⟨hresult, rfl⟩

theorem efDelEnv_triple (name : CString) :
    Triple (fun u => u = s) (efDelEnv flash name)
      (fun result u => result = .noErr ∧ u.env = Function.update s.env name none ∨ u.env = s.env)
      (fun _ _ => False) := by
  rintro u rfl
  unfold efDelEnv
  by_cases hresult : flash.result u.calls = .noErr
  · rw [if_pos hresult]
    by_cases hmissing : u.env name = none
    · rw [if_pos hmissing]
      exact Or.inr rfl
    · rw [if_neg hmissing]
      exact Or.inl ⟨rfl, rfl⟩
  · rw [if_neg hresult]
    exact Or.inr rfl

/-- A write that succeeds sets its variable, one that fails sets none. -/
theorem snfNvdmPortWriteStr_triple (group key : CString) (value : List UInt8) (len : ℤ) :
    Triple (fun u => u = s) (snfNvdmPortWriteStr flash group key value len)
      (fun _ u => 0 < len ∧ ∃ flashKey, nvdmPortMakeKey group key (flash.efEnvNameMax + 1) =
        some flashKey ∧ u = s.counted.set flashKey (some (value.take len.toNat)))
      (fun _ u => u.env = s.env) := by
  refine Triple.bind (Q := fun _ u => u = s ∧ 0 < len)
    (Triple.require (fun _ hu hlen => ⟨hu, of_decide_eq_true hlen⟩) fun _ hu _ => hu ▸ rfl) fun _ =>
    ?_
  refine Triple.given fun hlen => ?_
  refine Triple.bind (Q := fun flashKey u => u = s ∧
    nvdmPortMakeKey group key (flash.efEnvNameMax + 1) = some flashKey)
    (Triple.ofOption (fun _ _ hu hkey => ⟨hu, hkey⟩) fun _ hu _ => hu ▸ rfl) fun flashKey => ?_
  refine Triple.given fun hkey => ?_
  refine Triple.bind
    ((bkSetEnvEnhance_triple flashKey _).consequence (fun _ h => h) (fun _ _ h => h) fun _ _ h =>
    h.elim) fun result => ?_
  refine Triple.require ?_ ?_
  · rintro u (⟨-,hu⟩ | ⟨hne,-⟩) hresult
    · exact ⟨hlen, flashKey, hkey, hu⟩
    · exact absurd (of_decide_eq_true hresult) hne
  · rintro u (⟨he,-⟩ | ⟨-,hu⟩) hresult
    · exact absurd he (of_decide_eq_false hresult)
    · exact hu

/-- A delete leaves the other variables. Its own is gone, or is as it was where EasyFlash
did not know the name. -/
theorem snfNvdmPortDelete_triple (group key : CString) :
    Triple (fun u => u = s) (snfNvdmPortDelete flash group key)
      (fun _ u => ∃ flashKey, nvdmPortMakeKey group key (flash.efEnvNameMax + 1) = some flashKey ∧
        (u.env flashKey = none ∨ u.env flashKey = s.env flashKey) ∧ ∀ k, k ≠ flashKey →
          u.env k = s.env k)
      (fun _ u => u.env = s.env) := by
  refine Triple.bind (Q := fun flashKey u => u = s ∧
    nvdmPortMakeKey group key (flash.efEnvNameMax + 1) = some flashKey)
    (Triple.ofOption (fun _ _ hu hkey => ⟨hu, hkey⟩) fun _ hu _ => hu ▸ rfl) fun flashKey => ?_
  refine Triple.given fun hkey => ?_
  refine Triple.bind
    ((efDelEnv_triple flashKey).consequence (fun _ h => h) (fun _ _ h => h) fun _ _ h => h.elim)
    fun result => ?_
  refine Triple.require ?_ ?_
  · rintro u (⟨-,hu⟩ | hu) -
    · refine ⟨flashKey, hkey, Or.inl ?_, fun k hk => ?_⟩
      · rw [hu, Function.update_self]
      · rw [hu, Function.update_of_ne hk]
    · exact ⟨flashKey, hkey, Or.inr (congrFun hu _), fun k _ => congrFun hu k⟩
  · rintro u (⟨rfl,-⟩ | hu) hresult
    · exact absurd (Or.inl rfl) (of_decide_eq_false hresult)
    · exact hu

end Sonoff.Nvdm
