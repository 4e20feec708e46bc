import Mathlib.Logic.Function.Basic
import Sonoff.Base.Fallible
import Sonoff.Nvdm.Text

/-! # The NVDM and the other fallible steps

The flash store is a map from items to the bytes last written. Whether the next
write, read, allocation or SDK call succeeds is part of the state; a step finds
its outcome in front of its list, and succeeds where the list is used up.
-/
namespace Sonoff.Nvdm
open Bytes Fallible

/-- The items of the factory and the Matter group that the model reads or writes, and any
other key of the flash. -/
inductive NvdmItem
  | serialNumber
  | deviceId
  | factoryApikey
  | baseMac
  | deviceModel
  | deviceUiid
  | discriminator
  | iterationCount
  | salt
  | verifier
  | vendorId
  | vendorName
  | productId
  | productName
  | rdIdUid
  | passcode
  | cd
  | dacCert
  | dacKey
  | paiCert
  | other (flashKey : CString)
  deriving DecidableEq, Repr

structure Outcomes where
  writes : List Bool
  reads : List Bool
  allocs : List Bool
  sdk : List Bool
  deriving DecidableEq, Repr

def Outcomes.reliable : Outcomes := ⟨[], [], [], []⟩

structure NvdmState where
  items : NvdmItem → Option (List UInt8)
  outcomes : Outcomes

/-- A function that returns 0 or a negative value. -/
abbrev NvdmM := EStateM Unit NvdmState

namespace NvdmState

def nextWrite (s : NvdmState) : Bool := s.outcomes.writes.headD true
def nextRead (s : NvdmState) : Bool := s.outcomes.reads.headD true
def nextAlloc (s : NvdmState) : Bool := s.outcomes.allocs.headD true
def nextSdk (s : NvdmState) : Bool := s.outcomes.sdk.headD true

def popWrite (s : NvdmState) :
    NvdmState := { s with outcomes := { s.outcomes with writes := s.outcomes.writes.tail } }
def popRead (s : NvdmState) :
    NvdmState := { s with outcomes := { s.outcomes with reads := s.outcomes.reads.tail } }
def popAlloc (s : NvdmState) :
    NvdmState := { s with outcomes := { s.outcomes with allocs := s.outcomes.allocs.tail } }
def popSdk (s : NvdmState) :
    NvdmState := { s with outcomes := { s.outcomes with sdk := s.outcomes.sdk.tail } }

def setItem (s : NvdmState) (item : NvdmItem) (value : List UInt8) : NvdmState :=
  { s with items := Function.update s.items item (some value) }

@[simp] theorem popWrite_items (s : NvdmState) : s.popWrite.items = s.items := rfl
@[simp] theorem popRead_items (s : NvdmState) : s.popRead.items = s.items := rfl
@[simp] theorem popAlloc_items (s : NvdmState) : s.popAlloc.items = s.items := rfl
@[simp] theorem popSdk_items (s : NvdmState) : s.popSdk.items = s.items := rfl

/-- The number of failures among the writes, reads and allocations to come. -/
def faults (s : NvdmState) : ℕ :=
  s.outcomes.writes.count false + s.outcomes.reads.count false + s.outcomes.allocs.count false

theorem count_tail_le (l : List Bool) : l.tail.count false ≤ l.count false :=
  l.tail_sublist.count_le false

/-- A failure ahead is gone once it has happened. -/
theorem count_tail_of_false {l : List Bool} (h : l.headD true = false) :
    l.tail.count false + 1 = l.count false := by
  cases l with
  | nil => cases h
  | cons b l =>
    cases h
    simp

theorem faults_popWrite (s : NvdmState) : s.popWrite.faults ≤ s.faults :=
  Nat.add_le_add_right (Nat.add_le_add_right (count_tail_le _) _) _

theorem faults_popRead (s : NvdmState) : s.popRead.faults ≤ s.faults :=
  Nat.add_le_add_right (Nat.add_le_add_left (count_tail_le _) _) _

theorem faults_popAlloc (s : NvdmState) : s.popAlloc.faults ≤ s.faults :=
  Nat.add_le_add_left (count_tail_le _) _

theorem faults_popWrite_of_failed {s : NvdmState} (h : s.nextWrite = false) :
    s.popWrite.faults + 1 = s.faults := by
  have := count_tail_of_false h
  simp only [faults, popWrite]
  omega

theorem faults_popAlloc_of_failed {s : NvdmState} (h : s.nextAlloc = false) :
    s.popAlloc.faults + 1 = s.faults := by
  have := count_tail_of_false h
  simp only [faults, popAlloc]
  omega

end NvdmState

/-- `snfNvdmPortWriteStr`: a failed write leaves the old value. -/
def snfNvdmWriteStr (item : NvdmItem) (value : List UInt8) : NvdmM Unit := fun s =>
  if value = [] then .error () s
  else if s.nextWrite then .ok () (s.popWrite.setItem item value)
  else .error () s.popWrite

/-- What `bk_get_env_enhance` leaves in a buffer of this size: nothing of a missing or
empty item, and a long one is cut. -/
def readValue (items : NvdmItem → Option (List UInt8)) (item : NvdmItem) (buffSize : ℕ) :
    Option CString :=
  match items item with
  | some (b :: bs) => some (.ofBuffer ((b :: bs).take (buffSize - 1)))
  | _ => none

def snfNvdmReadStr (item : NvdmItem) (len : ℕ) : NvdmM CString := fun s =>
  if len = 0 then .error () s
  else if s.nextRead then
    match readValue s.items item len with
    | some value => .ok value s.popRead
    | none => .error () s.popRead
  else .error () s.popRead

def pvPortMalloc : NvdmM Unit := fun s => if s.nextAlloc then .ok () s.popAlloc
    else .error () s.popAlloc

def mallocSucceeds : NvdmM Bool := fun s => .ok s.nextAlloc s.popAlloc

/-- A call into the SDK that may fail for reasons of its own. -/
def sdkCall : NvdmM Unit := fun s => if s.nextSdk then .ok () s.popSdk else .error () s.popSdk

def factoryStrWrite (item : NvdmItem) (value : CString) :
    NvdmM Unit := snfNvdmWriteStr item value.bytes

def factoryStrRead (item : NvdmItem) (buffSize : ℕ) : NvdmM CString := do
  require (buffSize ≠ 0) ()
  snfNvdmReadStr item buffSize

def snfSerialNumberGet (size : ℕ) : NvdmM CString := do
  require (nvdmFactorySerialNumberLen < size) ()
  let serialNumber ← snfNvdmReadStr .serialNumber size
  require (serialNumberIsValid serialNumber) ()
  return serialNumber

def matterItemGet (item : NvdmItem) (buffSize maxLen : ℕ) : NvdmM CString := do
  require (maxLen < buffSize) ()
  snfNvdmReadStr item buffSize

def matterItemSet (item : NvdmItem) (value : CString) :
    NvdmM Unit := snfNvdmWriteStr item value.bytes

variable {α ε : Type} {s t : NvdmState} {item : NvdmItem} {value : CString} {size maxLen : ℕ}
  {items : NvdmItem → Option (List UInt8)}

theorem CString.bytes_ne_nil (str : CString) : str.bytes ≠ [] := by simp [CString.bytes]

/-- A text written into an item reads back as far as the buffer has room for it. -/
theorem readValue_cut (h : items item = some value.bytes) (size : ℕ) :
    readValue items item size = some (value.take (size - 1)) := by
  have hread := value.ofBuffer_take_bytes (size - 1)
  unfold readValue
  rw [h]
  cases hb : value.bytes with
  | nil => exact absurd hb value.bytes_ne_nil
  | cons b bs =>
    rw [hb] at hread
    exact congrArg some hread

theorem readValue_written (h : items item = some value.bytes) (hlen : value.length < size) :
    readValue items item size = some value := by
  rw [readValue_cut h, CString.take_of_length_le (Nat.le_sub_one_of_lt hlen)]

theorem readValue_empty (h : items item = some CString.empty.bytes) (hsize : 0 < size) :
    readValue items item size = some .empty := readValue_written h hsize

theorem snfNvdmReadStr_reliable (h : items item = some value.bytes) (hsize : size ≠ 0) :
    snfNvdmReadStr item size ⟨items, .reliable⟩ =
      .ok (value.take (size - 1)) ⟨items, .reliable⟩ := by
  unfold snfNvdmReadStr
  rw [if_neg hsize, readValue_cut h]
  rfl

/-- A Matter item reads back cut to the buffer, without a word of it. -/
theorem matterItemGet_reliable (h : items item = some value.bytes) (hsize : maxLen < size) :
    matterItemGet item size maxLen ⟨items, .reliable⟩ =
      .ok (value.take (size - 1)) ⟨items, .reliable⟩ :=
  bind_eq_ok.mpr ⟨(), _, require_eq_ok.mpr ⟨decide_eq_true hsize, rfl⟩,
    snfNvdmReadStr_reliable h (Nat.ne_zero_of_lt hsize)⟩

theorem matterItemSet_reliable (items : NvdmItem → Option (List UInt8)) (item : NvdmItem)
    (value : CString) : matterItemSet item value ⟨items, .reliable⟩ =
      .ok () ⟨Function.update items item (some value.bytes), .reliable⟩ := by
  rw [matterItemSet, snfNvdmWriteStr, if_neg value.bytes_ne_nil]
  rfl

section Triples
variable {P : NvdmState → Prop}

theorem snfNvdmWriteStr_triple {Q E : Unit → NvdmState → Prop}
    (hok : ∀ s, P s → s.nextWrite = true → Q () (s.popWrite.setItem item value.bytes))
    (herr : ∀ s, P s → s.nextWrite = false → E () s.popWrite) :
    Triple P (snfNvdmWriteStr item value.bytes) Q E := by
  intro s hs
  unfold snfNvdmWriteStr
  rw [if_neg value.bytes_ne_nil]
  cases hn : s.nextWrite with
  | true => exact hok s hs hn
  | false => exact herr s hs hn

theorem snfNvdmReadStr_triple {Q : CString → NvdmState → Prop} {E : Unit → NvdmState → Prop}
    (hsize : size ≠ 0) (hok : ∀ s value, P s → readValue s.items item size = some value →
    Q value s.popRead) (herr : ∀ s, P s → s.nextRead = false ∨ readValue s.items item size = none →
    E () s.popRead) : Triple P (snfNvdmReadStr item size) Q E := by
  intro s hs
  unfold snfNvdmReadStr
  rw [if_neg hsize]
  cases hn : s.nextRead with
  | false => exact herr s hs (Or.inl hn)
  | true =>
    rw [if_pos rfl]
    cases hv : readValue s.items item size with
    | some value => exact hok s value hs hv
    | none => exact herr s hs (Or.inr hv)

theorem pvPortMalloc_triple {Q E : Unit → NvdmState → Prop} (hok : ∀ s, P s → Q () s.popAlloc)
    (herr : ∀ s, P s → s.nextAlloc = false → E () s.popAlloc) : Triple P pvPortMalloc Q E := by
  intro s hs
  unfold pvPortMalloc
  cases hn : s.nextAlloc with
  | true => exact hok s hs
  | false => exact herr s hs hn

theorem sdkCall_triple {Q E : Unit → NvdmState → Prop} (hok : ∀ s, P s → Q () s.popSdk)
    (herr : ∀ s, P s → E () s.popSdk) : Triple P sdkCall Q E := by
  intro s hs
  unfold sdkCall
  cases hn : s.nextSdk with
  | true => exact hok s hs
  | false => exact herr s hs

end Triples

/-- The program writes nothing, and the failures ahead do not grow. -/
def ReadOnly (m : EStateM ε NvdmState α) : Prop :=
  ∀ s₀ : NvdmState, Keeps (fun s => s.items = s₀.items ∧ s.faults ≤ s₀.faults) m

namespace ReadOnly
variable {β ε' : Type} {m : EStateM ε NvdmState α}

/-- What holds before it holds after it. -/
theorem keeps (h : ReadOnly m) {R E : NvdmState → Prop}
    (hR : ∀ s t : NvdmState, t.items = s.items → t.faults ≤ s.faults → R s → R t)
    (hE : ∀ s, R s → E s) : Triple R m (fun _ => R) (fun _ => E) := fun s hs =>
  Triple.consequence (h s) (fun _ h => h) (fun _ _ h => hR s _ h.1 h.2 hs) (fun _ _ h =>
    hE _ (hR s _ h.1 h.2 hs)) s ⟨rfl, Nat.le_refl _⟩

/-- What holds of the items before it holds after it. -/
theorem keepsItems (h : ReadOnly m) {R E : (NvdmItem → Option (List UInt8)) → Prop}
    (hE : ∀ items, R items → E items) :
    Triple (fun s => R s.items) m (fun _ s => R s.items) (fun _ s => E s.items) :=
  h.keeps (fun _ _ hi _ hs => hi ▸ hs) fun _ hs => hE _ hs

theorem items_eq (h : ReadOnly m) :
    Triple (fun t => t = s) m (fun _ t => t.items = s.items) (fun _ t => t.items = s.items) :=
  Triple.consequence (h s) (fun _ h => h ▸ ⟨rfl, Nat.le_refl _⟩) (fun _ _ h => h.1) fun _ _ h => h.1

protected theorem pure (a : α) : ReadOnly (pure a : EStateM ε NvdmState α) := fun _ => .pure a

protected theorem bind {f : α → EStateM ε NvdmState β} (h : ReadOnly m) (hf : ∀ a, ReadOnly (f a)) :
    ReadOnly (m >>= f) := fun s => (h s).bind fun a => hf a s

protected theorem require (b : Bool) (e : ε) : ReadOnly (require b e) := fun _ => .require b e

protected theorem ofOption (o : Option α) (e : ε) : ReadOnly (ofOption o e) := fun _ =>
    .ofOption o e

protected theorem adaptExcept {f : ε → ε'} (h : ReadOnly m) : ReadOnly (EStateM.adaptExcept f m) :=
  fun s =>
  (h s).adaptExcept

theorem read (item : NvdmItem) (size : ℕ) : ReadOnly (snfNvdmReadStr item size) := by
  by_cases hsize : size = 0
  · intro s₀ s hs
    rw [snfNvdmReadStr, if_pos hsize]
    exact hs
  · exact fun _ => snfNvdmReadStr_triple hsize (fun s _ h _ =>
      ⟨h.1, (NvdmState.faults_popRead s).trans h.2⟩)
      fun s h _ => ⟨h.1, (NvdmState.faults_popRead s).trans h.2⟩

theorem malloc : ReadOnly pvPortMalloc := fun _ =>
  pvPortMalloc_triple (fun s h => ⟨h.1, (NvdmState.faults_popAlloc s).trans h.2⟩)
    fun s h _ => ⟨h.1, (NvdmState.faults_popAlloc s).trans h.2⟩

theorem tryMalloc : ReadOnly mallocSucceeds := fun _ s h =>
    ⟨h.1, (NvdmState.faults_popAlloc s).trans h.2⟩

theorem sdk : ReadOnly sdkCall := fun _ => sdkCall_triple (fun _ h => h) (fun _ h => h)

theorem factoryRead (item : NvdmItem) (size : ℕ) : ReadOnly (factoryStrRead item size) :=
  (ReadOnly.require _ _).bind fun _ => read item size

theorem matterGet (item : NvdmItem) (size maxLen : ℕ) : ReadOnly (matterItemGet item size maxLen) :=
  (ReadOnly.require _ _).bind fun _ => read item size

end ReadOnly

end Sonoff.Nvdm
