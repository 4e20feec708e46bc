import Sonoff.Ota.PackageReceive

/-! # What handling one data event can do

`otaHandleData` refuses the event, or hands its bytes to the parser or the
partition and ends in one notification. The inversion lemma holds for every
state of the parser; the spec on top of it needs the parser's invariant.
-/
namespace Sonoff.Ota
open Bytes AesGcm NorFlash OtaParse

variable {G : Type} {sdk : Sdk G}

/-- What the bytes of one event leave alone, whatever the parser's state. -/
structure ImageFrame (core : OtaCore G) (r : SnfOtaErrorCode × OtaCore G) : Prop where
  config : r.2.config = core.config
  info : r.2.info = { core.info with nextEraseOffset := r.2.info.nextEraseOffset }
  length : r.2.flash.length = core.flash.length
  inside : core.flash.Inside → r.2.flash.Inside
  succeeded : r.1 = .none → core.flash.Succeeded → r.2.flash.Succeeded

theorem ImageFrame.parsed (core : OtaCore G) (parser : SnfOtaParseContext G)
    (error : SnfOtaErrorCode) : ImageFrame core (error, core.setParser parser) :=
    ⟨rfl, rfl, rfl, id, fun _ h => h⟩

theorem ImageFrame.trans {core core₁ : OtaCore G} {error : SnfOtaErrorCode}
    {r : SnfOtaErrorCode × OtaCore G}
    (h : ImageFrame core (error, core₁)) (hok : error = .none) (h' : ImageFrame core₁ r) :
    ImageFrame core r where
  config := h'.config.trans h.config
  info := by rw [h'.info, h.info]
  length := h'.length.trans h.length
  inside := fun hi => h'.inside (h.inside hi)
  succeeded := fun hn hs => h'.succeeded hn (h.succeeded hok hs)

theorem writePayload_frame (core : OtaCore G) (payload : SnfOtaPayload) :
    ImageFrame core (writePayload core payload) :=
  let h := writePayload_spec core payload
  ⟨h.frame.config, h.frame.info, h.frame.length, h.inside, h.succeeded⟩

theorem otaHandlePackageLoop_frame {fuel : ℕ} {core : OtaCore G} {data : List UInt8}
    {r : SnfOtaErrorCode × OtaCore G} (h : otaHandlePackageLoop sdk fuel core data = some r) :
    ImageFrame core r := by
  induction fuel generalizing core data with
  | zero => cases h
  | succ fuel ih =>
    simp only [otaHandlePackageLoop] at h
    have hp := ImageFrame.parsed core (snfOtaParseData sdk core.parser data).context
    have hw := writePayload_frame (core.setParser (snfOtaParseData sdk core.parser data).context)
      (snfOtaParseData sdk core.parser data).payload
    split at h
    · cases h
      exact .parsed core core.parser .none
    · split at h
      · cases h
        exact hp _
      · split at h
        case isTrue =>
          cases h
          exact (hp .none).trans rfl hw
        case isFalse hok =>
          exact ((hp .none).trans rfl hw).trans (not_not.mp hok) (ih h)

theorem otaHandleImage_frame {core : OtaCore G} {offset : ℕ} {data : List UInt8}
    {r : SnfOtaErrorCode × OtaCore G} (h : otaHandleImage sdk core offset data = some r) :
    ImageFrame core r := by
  unfold otaHandleImage at h
  split at h
  · exact otaHandlePackageLoop_frame h
  · cases h
    have hw := otaEraseAndWrite_spec core offset data
    exact ⟨hw.frame.config, hw.frame.info, hw.frame.length, hw.inside, hw.succeeded⟩

/-- The refusal of an event that does not continue the input. -/
def refusal : OtaOutcome := ⟨.failed, .invalidParam, -1⟩

structure Continues (info : SnfOtaInfo) (event : SnfOtaImageData) (data : List UInt8) : Prop where
  receiving : info.state = .receiving
  bytes : event.data = some data
  nonempty : data ≠ []
  offset : event.offset = info.receivedSize
  fits : info.receivedSize + data.length ≤ info.totalSize

def acceptedOutcome (core : OtaCore G) : OtaOutcome :=
  if core.info.receivedSize < core.info.totalSize then ⟨.receiving, .none, 0⟩
    else otaHandleVerify core

inductive DataResult (sdk : Sdk G) (core : OtaCore G) (event : SnfOtaImageData) :
    OtaCore G → OtaOutcome → Prop
  | refused : (∀ data, ¬Continues core.info event data) → DataResult sdk core event core refusal
  | failed {data : List UInt8} {r : SnfOtaErrorCode × OtaCore G} : Continues core.info event data →
      otaHandleImage sdk core event.offset data = some r → r.1 ≠ .none →
      DataResult sdk core event r.2 ⟨.failed, r.1, -1⟩
  | accepted {data : List UInt8} {r : SnfOtaErrorCode × OtaCore G} :
      Continues core.info event data →
      otaHandleImage sdk core event.offset data = some r → r.1 = .none →
      DataResult sdk core event (r.2.addReceived data.length)
        (acceptedOutcome (r.2.addReceived data.length))

/-- The event passes every check of `otaHandleData`, and what the rest computes. -/
theorem otaHandleData_of_continues {core : OtaCore G} {event : SnfOtaImageData} {data : List UInt8}
    (h : Continues core.info event data) : otaHandleData sdk core event =
      (otaHandleImage sdk core event.offset data).map fun r =>
        if r.1 ≠ .none then (r.2, ⟨.failed, r.1, -1⟩)
        else (r.2.addReceived data.length, acceptedOutcome (r.2.addReceived data.length)) := by
  have hlen := List.length_pos_iff.mpr h.nonempty
  have hoff := h.offset
  have hfits := h.fits
  unfold otaHandleData
  dsimp only
  rw [if_neg (not_not.mpr h.receiving), h.bytes]
  dsimp only
  rw [if_neg (by omega), if_neg (not_not.mpr hoff), if_neg (by omega)]
  cases himg : otaHandleImage sdk core event.offset data with
  | none => rfl
  | some r =>
    have hinfo := (otaHandleImage_frame himg).info
    have htotal : (r.2.addReceived data.length).info.totalSize = core.info.totalSize := by
      show r.2.info.totalSize = _
      rw [hinfo]
    simp only [Option.map_some, acceptedOutcome, htotal]
    split
    · rfl
    · split <;> rfl

theorem otaHandleData_of_not_continues {core : OtaCore G} {event : SnfOtaImageData}
    (h : ∀ data, ¬Continues core.info event data) :
    otaHandleData sdk core event = some (core, refusal) := by
  unfold otaHandleData
  dsimp only
  split
  case isTrue => rfl
  case isFalse hst =>
    split
    · rfl
    case h_2 data hdata =>
      split
      case isTrue => rfl
      case isFalse hlen =>
        split
        case isTrue => rfl
        case isFalse hoff =>
          split
          case isTrue => rfl
          case isFalse hfit =>
            exact absurd ⟨not_not.mp hst, hdata, fun hd => hlen (by rw [hd]; rfl),
              not_not.mp hoff, by omega⟩ (h data)

/-- The inversion of `otaHandleData`. -/
theorem otaHandleData_result {core core' : OtaCore G} {event : SnfOtaImageData} {out : OtaOutcome}
    (h : otaHandleData sdk core event = some (core', out)) :
    DataResult sdk core event core' out := by
  by_cases hc : ∃ data, Continues core.info event data
  · obtain ⟨data,hc⟩ := hc
    rw [otaHandleData_of_continues hc] at h
    obtain ⟨r,himg,hr⟩ := Option.map_eq_some_iff.mp h
    split at hr
    case isTrue hne =>
      cases hr
      exact .failed hc himg hne
    case isFalse hok =>
      cases hr
      exact .accepted hc himg (not_not.mp hok)
  · rw [not_exists] at hc
    rw [otaHandleData_of_not_continues hc] at h
    cases h
    exact .refused hc

def Verified (core : OtaCore G) : Prop :=
  core.info.receivedSize = core.info.totalSize ∧
    (if core.config.format = .package then snfOtaParseFinish core.parser
      else otaVerifyImage core.config.imageInfo) = .none

/-- `otaHandleVerify` notifies success exactly for a verified image. -/
theorem otaHandleVerify_result (core : OtaCore G) :
    (Verified core ∧ otaHandleVerify core = ⟨.verifySuccess, .none, 0⟩)
      ∨ (¬Verified core ∧ ∃ error, otaHandleVerify core = ⟨.verifyFailed, error, -1⟩) := by
  unfold otaHandleVerify Verified
  dsimp only
  generalize (if core.config.format = .package then snfOtaParseFinish core.parser
    else otaVerifyImage core.config.imageInfo) = error
  by_cases hsize : core.info.receivedSize = core.info.totalSize
  · rw [if_neg (not_not.mpr hsize)]
    by_cases hok : error = .none
    · rw [if_neg (not_not.mpr hok)]
      exact Or.inl ⟨⟨hsize,hok⟩, rfl⟩
    · rw [if_pos hok]
      exact Or.inr ⟨fun h => hok h.2, error, rfl⟩
  · rw [if_pos hsize]
    exact Or.inr ⟨fun h => hsize h.1, .imageIncomplete, rfl⟩

/-- The three ways the acceptance of an event can be notified. -/
theorem acceptedOutcome_cases (core : OtaCore G) :
    (core.info.receivedSize < core.info.totalSize ∧ acceptedOutcome core = ⟨.receiving, .none, 0⟩)
      ∨ (Verified core ∧ acceptedOutcome core = ⟨.verifySuccess, .none, 0⟩)
      ∨ (¬Verified core ∧ ∃ error, acceptedOutcome core = ⟨.verifyFailed, error, -1⟩) := by
  unfold acceptedOutcome
  split
  case isTrue hlt =>
    exact Or.inl ⟨hlt, rfl⟩
  case isFalse => exact Or.inr (otaHandleVerify_result core)

end Sonoff.Ota
