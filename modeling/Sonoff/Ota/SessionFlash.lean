import Sonoff.Base.Machine
import Sonoff.Ota.DataHandling
import Sonoff.Ota.PackageParse

/-! # What a session leaves in the partition

A session as its data events see it: the events are handled one after the other
until a handler ends the task. The invariant relates the working data to the
bytes of the events handled so far.
-/
namespace Sonoff.Ota
open Bytes AesGcm NorFlash OtaParse Machine PackageFormat

variable {G : Type}

structure DataSession (G : Type) where
  core : OtaCore G
  received : List UInt8
  ended : Bool

def sessionParser (config : SnfOtaConfig) (flashSize : ℕ) : SnfOtaParseContext G :=
  if config.format = .package then
    (snfOtaParseInit config.imageInfo.size (some config.fileName) flashSize).1
  else .zero

/-- `snfOtaStart` on a partition with any content; its log is that of the session. -/
def dataSessionStart (config : SnfOtaConfig) (flash : Flash) : DataSession G where
  core :=
    { config := config
      parser := sessionParser config flash.length
      info := { SnfOtaInfo.zero with state := .receiving, totalSize := config.imageInfo.size }
      flash := { flash with log := [] } }
  received := []
  ended := false

variable (sdk : Sdk G)

/-- One data event, whatever its offset and size. -/
def dataStep (s : DataSession G) (event : SnfOtaImageData) : Option (DataSession G) :=
  if s.ended then Option.none
  else (otaHandleData sdk s.core event).map fun r =>
    ⟨r.1.notified r.2.state, s.received ++ event.data.getD [], r.2.ret != 0⟩

/-- The content an input asks for: the selected plaintext, or the input itself. -/
def HoldsImage (config : SnfOtaConfig) (flashSize : ℕ) (input : List UInt8) (content : ℕ → UInt8) :
    Prop :=
  if config.format = .package then
    ∃ i plain, Selects sdk input (cString (config.fileName.take 32 ++ [0])) flashSize i plain
      ∧ ∀ k < plain.length, content k = plain.getD k 0
  else ∀ k < input.length, content k = input.getD k 0

structure Parsed (sdk : Sdk G) (config : SnfOtaConfig) (flashSize : ℕ)
    (parser : SnfOtaParseContext G) (received : List UInt8) : Prop where
  fed : parser = (feedBytes sdk (sessionParser config flashSize) received).1
  valid : parser.Valid
  input : parser.error = .none → parser.packageSize = config.imageInfo.size ∧
    parser.offset = received.length

def Expected (sdk : Sdk G) (config : SnfOtaConfig) (flashSize : ℕ) (parser : SnfOtaParseContext G)
    (received done : List UInt8) : Prop :=
  if config.format = .package then done.length = parser.emittedSize
    ∧ (feedBytes sdk (sessionParser config flashSize) received).2 = done.zipIdx 0
  else done = received

structure Streaming (sdk : Sdk G) (config : SnfOtaConfig) (flashSize : ℕ) (core : OtaCore G)
    (received : List UInt8) : Prop where
  configured : core.config = config
  length : core.flash.length = flashSize
  total : core.info.totalSize = config.imageInfo.size
  counted : core.info.receivedSize = received.length
  parsed : config.format = .package → Parsed sdk config flashSize core.parser received
  filled : ∃ done, Filled core done ∧ Expected sdk config flashSize core.parser received done

variable {sdk : Sdk G} {config : SnfOtaConfig} {flashSize : ℕ} {core : OtaCore G}
  {received : List UInt8}

theorem sessionParser_package (hp : config.format = .package) (flashSize : ℕ) :
    (sessionParser config flashSize : SnfOtaParseContext G) =
      (snfOtaParseInit config.imageInfo.size (some config.fileName) flashSize).1 := if_pos hp

theorem streaming_start (hsize : config.imageInfo.size < 4294967296) (flash : Flash) :
    Streaming sdk config flash.length (dataSessionStart config flash : DataSession G).core [] := by
  refine ⟨rfl, rfl, rfl, rfl, fun hp => ?_, [], ⟨⟨0, rfl, .start _⟩, nofun⟩, ?_⟩
  · have heq := sessionParser_package (G := G) hp flash.length
    have hv : (sessionParser config flash.length : SnfOtaParseContext G).Valid := by
      rw [heq]
      exact snfOtaParseInit_valid (some config.fileName) flash.length hsize
    refine ⟨rfl, hv, fun he => ?_⟩
    simp only [dataSessionStart, heq] at he ⊢
    rcases snfOtaParseInit_cases G config.imageInfo.size (some config.fileName) flash.length with
      ⟨name,_,_,hinit⟩ | ⟨_,hinit⟩ <;> rw [hinit] at he ⊢
    · exact ⟨rfl, rfl⟩
    · cases he
  · unfold Expected
    split
    case isTrue hp =>
      have heq := sessionParser_package (G := G) hp flash.length
      simp only [dataSessionStart, heq]
      rcases snfOtaParseInit_cases G config.imageInfo.size (some config.fileName) flash.length with
        ⟨name,_,_,hinit⟩ | ⟨_,hinit⟩ <;> rw [hinit] <;> exact ⟨rfl, rfl⟩
    case isFalse => rfl

structure ImageSpec (sdk : Sdk G) (config : SnfOtaConfig) (flashSize : ℕ) (core : OtaCore G)
    (received data : List UInt8) (r : SnfOtaErrorCode × OtaCore G) : Prop where
  frame : ImageFrame core r
  once : ErasedOnce 4096 r.2.flash.ops
  streaming : r.1 = .none →
    Streaming sdk config flashSize (r.2.addReceived data.length) (received ++ data)

theorem otaHandleImage_spec (hinc : sdk.Incremental) (hsize : config.imageInfo.size < 4294967296)
    (h : Streaming sdk config flashSize core received) {data : List UInt8} (hne : data ≠ [])
    (hfits : core.info.receivedSize + data.length ≤ core.info.totalSize) :
    ∃ r, otaHandleImage sdk core core.info.receivedSize data = some r
      ∧ ImageSpec sdk config flashSize core received data r := by
  have hcount := h.counted
  have htotal := h.total
  obtain ⟨done,hfill,hexp⟩ := h.filled
  unfold otaHandleImage
  rw [h.configured]
  unfold Expected at hexp
  split at hexp
  case isTrue hp =>
    have hpar := h.parsed hp
    obtain ⟨r,hr,hspec⟩ := otaHandlePackage_spec hinc hpar.valid hne (fun he => by
      have := hpar.input he
      omega)
    have hframe := otaHandlePackageLoop_frame hr
    rw [if_pos hp]
    refine ⟨r, hr, hframe, hspec.once _ hfill hexp.1, fun hok => ?_⟩
    have hinfo := hframe.info
    obtain ⟨hparser,hcode,_⟩ := hspec.fed.resolve_left (by rw [hok]; simp)
    have happ := feedBytes_append sdk (sessionParser config flashSize) received data
    rw [← hpar.fed] at happ
    obtain ⟨piece,hfill',hlen',hplaced⟩ := hspec.filled hok _ hfill hexp.1
    refine ⟨hframe.config.trans h.configured, hframe.length.trans h.length, ?_, ?_, fun _ =>
      ⟨?_, hspec.valid, ?_⟩,
      done ++ piece, ⟨hfill'.programmed,hfill'.succeeded⟩, ?_⟩
    · show r.2.info.totalSize = _
      rw [hinfo]
      exact htotal
    · show u32Add r.2.info.receivedSize _ = _
      rw [hinfo, u32Add_eq (by dsimp only; omega), List.length_append]
      dsimp only
      omega
    · rw [happ]
      exact hparser
    · intro _
      obtain ⟨h₁,h₂⟩ := hspec.consumed hok
      obtain ⟨h₃,h₄⟩ := hpar.input (hspec.error_none hok)
      rw [List.length_append]
      exact ⟨h₁.trans h₃, by rw [← h₄]; exact h₂⟩
    · unfold Expected
      rw [if_pos hp, happ]
      refine ⟨hlen', ?_⟩
      rw [hexp.2, hplaced, List.zipIdx_append, Nat.zero_add]
  case isFalse hp =>
    have hw := otaEraseAndWrite_spec core core.info.receivedSize data
    have hoff : core.info.receivedSize = done.length := by rw [hexp, hcount]
    rw [if_neg hp]
    refine ⟨_, rfl, ⟨hw.frame.config, hw.frame.info, hw.frame.length, hw.inside, hw.succeeded⟩,
      hw.once hne done hoff hfill, fun hok => ?_⟩
    have hinfo := hw.frame.info
    have hfill' := hw.filled hok hne done hoff hfill
    refine ⟨hw.frame.config.trans h.configured, hw.frame.length.trans h.length, ?_, ?_, fun hp' =>
      absurd hp' hp,
      done ++ data, ⟨hfill'.programmed,hfill'.succeeded⟩, ?_⟩
    · show (otaEraseAndWrite core core.info.receivedSize data).2.info.totalSize = _
      rw [hinfo]
      exact htotal
    · show u32Add (otaEraseAndWrite core core.info.receivedSize data).2.info.receivedSize _ = _
      rw [hinfo, u32Add_eq (by dsimp only; omega), List.length_append]
      dsimp only
      omega
    · unfold Expected
      rw [if_neg hp, hexp]

structure SessionInvariant (sdk : Sdk G) (config : SnfOtaConfig) (flashSize : ℕ)
    (s : DataSession G) : Prop where
  inside : s.core.flash.Inside
  once : ErasedOnce 4096 s.core.flash.ops
  streaming : s.ended = false → Streaming sdk config flashSize s.core s.received
  verified : s.core.info.state = .verifySuccess → s.ended = false ∧ Verified s.core

theorem dataSessionStart_invariant (hsize : config.imageInfo.size < 4294967296) (flash : Flash) :
    SessionInvariant sdk config flash.length (dataSessionStart config flash) where
  inside := nofun
  once := trivial
  streaming := fun _ => streaming_start hsize flash
  verified := nofun

/-- The step lemma: every event leads to a next state, and it keeps the invariant. -/
theorem dataStep_invariant (hinc : sdk.Incremental) (hsize : config.imageInfo.size < 4294967296)
    {s : DataSession G} (h : SessionInvariant sdk config flashSize s) (hrun : s.ended = false)
    (event : SnfOtaImageData) :
    ∃ t, dataStep sdk s event = some t ∧ SessionInvariant sdk config flashSize t := by
  have hst := h.streaming hrun
  unfold dataStep
  rw [if_neg (by simp [hrun])]
  by_cases hc : ∃ data, Continues s.core.info event data
  · obtain ⟨data,hc⟩ := hc
    obtain ⟨r,hr,hspec⟩ := otaHandleImage_spec hinc hsize hst hc.nonempty hc.fits
    rw [otaHandleData_of_continues hc, hc.offset, hr, hc.bytes]
    refine ⟨_, rfl, ?_⟩
    dsimp only [Option.getD_some]
    by_cases hok : r.1 = .none
    · rw [if_neg (not_not.mpr hok)]
      have hnext := hspec.streaming hok
      have hkeep : ∀ state, Streaming sdk config flashSize
        ((r.2.addReceived data.length).notified state)
          (s.received ++ data) := by
        intro state
        obtain ⟨done,hfill,hexp⟩ := hnext.filled
        exact ⟨hnext.configured, hnext.length, hnext.total, hnext.counted, hnext.parsed, done,
          ⟨hfill.programmed,hfill.succeeded⟩, hexp⟩
      refine ⟨hspec.frame.inside h.inside, hspec.once, fun _ => hkeep _, ?_⟩
      intro hvs
      rcases acceptedOutcome_cases
        (r.2.addReceived data.length) with ⟨_,ho⟩ | ⟨hv,ho⟩ | ⟨_,error,ho⟩
      · rw [ho] at hvs
        cases hvs
      · rw [ho]
        exact ⟨rfl,hv⟩
      · rw [ho] at hvs
        cases hvs
    · rw [if_pos hok]
      exact ⟨hspec.frame.inside h.inside, hspec.once, nofun, nofun⟩
  · rw [not_exists] at hc
    rw [otaHandleData_of_not_continues hc]
    exact ⟨_, rfl, h.inside, h.once, nofun, nofun⟩

/-- A verified session holds the image in its partition. -/
theorem Streaming.holdsImage (hinc : sdk.Incremental) (hsize : config.imageInfo.size < 4294967296)
    (h : Streaming sdk config flashSize core received) (hv : Verified core) :
    HoldsImage sdk config flashSize received core.flash.content := by
  obtain ⟨done,hfill,hexp⟩ := h.filled
  obtain ⟨k,_,hp⟩ := hfill.programmed
  obtain ⟨hall,hpass⟩ := hv
  unfold HoldsImage
  unfold Expected at hexp
  rw [h.configured] at hpass
  split at hexp
  case isTrue hpk =>
    rw [if_pos hpk] at hpass ⊢
    have hpar := h.parsed hpk
    rw [hpar.fed, sessionParser_package hpk] at hpass
    rw [sessionParser_package hpk] at hexp
    rcases snfOtaParseInit_cases G config.imageInfo.size (some config.fileName) flashSize with
      ⟨name,hn,hacc,hinit⟩ | ⟨_,hinit⟩
    · cases hn
      rw [hinit] at hpass hexp
      have hlen : config.imageInfo.size = received.length := by
        rw [← h.total, ← h.counted, hall]
      obtain ⟨hsound,hemit⟩ := feed_package hinc (initContext_valid hsize hacc) rfl rfl rfl hlen rfl
        (rfl : _ = flashSize) (rfl : _ = cString (config.fileName.take 32 ++ [0]))
      obtain ⟨i,plain,hsel⟩ := hsound hpass
      have hplain := (hemit i plain hsel).2
      rw [hexp.2] at hplain
      have hdone : done = plain := by
        have := congrArg (List.map Prod.fst) hplain
        simpa using this
      exact ⟨i, plain, hsel, fun j hj => hdone ▸ hp.holds j (hdone ▸ hj)⟩
    · rw [hinit, feedBytes_of_error (by simp)] at hpass
      rw [snfOtaParseFinish_of_error (by simp)] at hpass
      cases hpass
  case isFalse hpk =>
    rw [if_neg hpk]
    rw [← hexp]
    exact hp.holds

/-- Whatever events a session handles on a partition with any content: no
operation is issued outside the partition, every sector touched is erased
exactly once, before the first write into it, and when the verification
succeeds all operations succeeded and the partition holds the image from its
start. -/
theorem session_flash (hinc : sdk.Incremental) (hsize : config.imageInfo.size < 4294967296)
    (flash : Flash) {s : DataSession G}
    (h : Reach (dataStep sdk) anyStep (dataSessionStart config flash) s) :
    s.core.flash.Inside ∧ ErasedOnce 4096 s.core.flash.ops
      ∧ (s.core.info.state = .verifySuccess → s.received.length = config.imageInfo.size
        ∧ s.core.flash.Succeeded ∧
          HoldsImage sdk config flash.length s.received s.core.flash.content)
      ∧ (s.ended = false → ∀ event, ∃ t, dataStep sdk s event = some t) := by
  have hinv : SessionInvariant sdk config flash.length s := by
    refine h.invariant (dataSessionStart_invariant hsize flash) ?_
    intro s event t hs _ hstep
    have hrun : s.ended = false := by
      by_contra hne
      simp [dataStep, hne] at hstep
    obtain ⟨t',ht',hinv⟩ := dataStep_invariant hinc hsize hs hrun event
    rw [hstep] at ht'
    exact Option.some.inj ht' ▸ hinv
  refine ⟨hinv.inside, hinv.once, fun hvs => ?_, fun hrun event => ?_⟩
  · obtain ⟨hrun,hv⟩ := hinv.verified hvs
    have hst := hinv.streaming hrun
    obtain ⟨done,hfill,_⟩ := hst.filled
    exact ⟨by rw [← hst.counted, ← hst.total]; exact hv.1, hfill.succeeded,
      hst.holdsImage hinc hsize hv⟩
  · obtain ⟨t,ht,_⟩ := dataStep_invariant hinc hsize hinv hrun event
    exact ⟨t, ht⟩

def twoByteConfig :
    SnfOtaConfig := { SnfOtaConfig.zero with imageInfo := ⟨2, snfOtaCheckNone, snfOtaCipherNone⟩ }

def twoByteEvents : List SnfOtaImageData := [⟨0, some [7]⟩, ⟨1, some [9]⟩]

theorem session_flash_two_bytes :
    ∃ s, exec (dataStep softSdk) (dataSessionStart twoByteConfig blankFlash) twoByteEvents = some s
      ∧ s.core.info.state = .verifySuccess ∧ s.core.flash.Inside ∧ ErasedOnce 4096 s.core.flash.ops
      ∧ (s.core.info.state = .verifySuccess → s.received.length = 2
        ∧ s.core.flash.Succeeded ∧
          HoldsImage softSdk twoByteConfig 4096 s.received s.core.flash.content)
      ∧ (s.ended = false → ∀ event, ∃ t, dataStep softSdk s event = some t) :=
  ⟨_, rfl, rfl, @session_flash _ _ twoByteConfig softSdk_incremental (by decide) blankFlash _
    (@reach_of_exec _ _ _ _ _ twoByteEvents rfl)⟩

end Sonoff.Ota
