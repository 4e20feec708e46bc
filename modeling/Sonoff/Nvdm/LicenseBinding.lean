import Mathlib.Data.List.Flatten
import Sonoff.Nvdm.LicenseConsistency

/-! # A check value stands for one license

The fields are hashed without separators. All but the uiid have a fixed width, so the
length of the whole gives the uiid's.
-/
namespace Sonoff.Nvdm
open Bytes Fallible

variable {sha256 : List UInt8 → List UInt8} {J : Type} {json : CJson J}
  {items : NvdmItem → Option (List UInt8)} {l l' : License} {text : CString} {s t : NvdmState}

def hashInput (parts : List CString) : List UInt8 := parts.flatMap CString.chars

structure License.Accepted (json : CJson J) (l : License) : Prop where
  fields : ∃ frame, licenseFields json frame = some l
  model : l.deviceModel = sonoffDeviceModel

structure License.Widths (l : License) : Prop where
  deviceId : l.deviceId.length = 10
  apikey : l.apikey.length = 36
  baseMac : l.baseMac.length = 17
  deviceModel : l.deviceModel.length = 10

theorem License.Accepted.widths (h : l.Accepted json) : l.Widths := by
  obtain ⟨frame,hfields⟩ := h.fields
  have hvalid := (licenseFields_valid hfields).1
  simp only [License.isValid, Bool.and_eq_true, decide_eq_true_eq] at hvalid
  obtain ⟨⟨⟨⟨hid,hapikey⟩,hmac⟩,-⟩,-⟩ := hvalid
  obtain ⟨mac,hmac⟩ := Option.isSome_iff_exists.mp hmac
  exact ⟨hid, factoryApikeyIsValid_length hapikey, baseMacParse_length hmac, by rw [h.model]; rfl⟩

theorem hashInput_length (parts : List CString) :
    (hashInput parts).length = (parts.map CString.length).sum :=
  List.length_flatMap

/-- Texts of the same widths with the same input are the same. -/
theorem hashInput_injective {parts parts' : List CString}
    (hwidths : parts.map CString.length = parts'.map CString.length)
    (h : hashInput parts = hashInput parts') : parts = parts' := by
  have hchars : parts.map CString.chars = parts'.map CString.chars := by
    refine List.eq_iff_flatten_eq.mpr ⟨h, ?_⟩
    rw [List.map_map, List.map_map]
    exact hwidths
  exact List.map_injective_iff.mpr (fun _ _ => CString.eq_of_chars) hchars

/-- Whatever the order of the five fields, equal inputs leave equal widths for the uiid. -/
theorem License.Widths.uiid_length (hl : l.Widths) (hl' : l'.Widths) {parts parts' : List CString}
    (hparts : parts.Perm l.c1) (hparts' : parts'.Perm l'.c1)
    (h : hashInput parts = hashInput parts') : l.uiid.length = l'.uiid.length := by
  have hlen := congrArg List.length h
  rw [hashInput_length, hashInput_length, (hparts.map _).sum_nat, (hparts'.map _).sum_nat] at hlen
  simp only [License.c1, List.map_cons, List.map_nil, List.sum_cons, List.sum_nil, hl.deviceId,
    hl.apikey, hl.baseMac, hl.deviceModel, hl'.deviceId, hl'.apikey, hl'.baseMac,
    hl'.deviceModel] at hlen
  omega

theorem License.c1_injective (hl : l.Widths) (hl' : l'.Widths)
    (h : hashInput l.c1 = hashInput l'.c1) : l = l' := by
  have huiid := hl.uiid_length hl' (.refl _) (.refl _) h
  have hparts : l.c1 = l'.c1 := hashInput_injective (by
    simp only [License.c1, List.map_cons, List.map_nil, hl.deviceId, hl.apikey, hl.baseMac,
      hl.deviceModel, hl'.deviceId, hl'.apikey, hl'.baseMac, hl'.deviceModel, huiid]) h
  obtain ⟨deviceId,apikey,baseMac,deviceModel,uiid⟩ := l
  simp only [License.c1, List.cons.injEq, and_true] at hparts
  obtain ⟨rfl,rfl,rfl,rfl,rfl⟩ := hparts
  rfl

theorem License.c5_injective (hl : l.Widths) (hl' : l'.Widths)
    (h : hashInput l.c5 = hashInput l'.c5) : l = l' := by
  -- The reply has the device id in front, the check at the end.
  have hperm : ∀ l : License, l.c5.Perm l.c1 := fun l => (List.perm_append_singleton l.deviceId
    [l.apikey, l.baseMac, l.deviceModel, l.uiid]).symm
  have huiid := hl.uiid_length hl' (hperm l) (hperm l') h
  have hparts : l.c5 = l'.c5 := hashInput_injective (by
    simp only [License.c5, List.map_cons, List.map_nil, hl.deviceId, hl.apikey, hl.baseMac,
      hl.deviceModel, hl'.deviceId, hl'.apikey, hl'.baseMac, hl'.deviceModel, huiid]) h
  obtain ⟨deviceId,apikey,baseMac,deviceModel,uiid⟩ := l
  simp only [License.c5, List.cons.injEq, and_true] at hparts
  obtain ⟨rfl,rfl,rfl,rfl,rfl⟩ := hparts
  rfl

theorem exists_of_mapM {α β : Type} {f : α → Option β} {xs : List α} {ys : List β}
    (h : xs.mapM f = some ys) : ∀ x ∈ xs, ∃ y, f x = some y := by
  induction xs generalizing ys with
  | nil => exact nofun
  | cons a xs ih =>
    rw [List.mapM_cons] at h
    obtain ⟨y,hy,h⟩ := Option.bind_eq_some_iff.mp h
    obtain ⟨rest,hrest,-⟩ := Option.bind_eq_some_iff.mp h
    intro x hx
    rcases List.mem_cons.mp hx with rfl | hx
    · exact ⟨y, hy⟩
    · exact ih hrest x hx

/-- The second digit of each byte of an address. -/
theorem baseMacParse_digit {mac : CString} (h : (baseMacParse mac).isSome) {i : ℕ}
    (hi : i < nvdmFactoryBaseMacLen) : (hexNibble (byteAt mac.chars (i * 3 + 1))).isSome := by
  obtain ⟨address,h⟩ := Option.isSome_iff_exists.mp h
  unfold baseMacParse at h
  split at h
  · cases h
  · obtain ⟨bytes,hbytes,-⟩ := Option.bind_eq_some_iff.mp h
    obtain ⟨byte,hbyte⟩ := exists_of_mapM hbytes i (List.mem_range.mpr hi)
    obtain ⟨high,-,hbyte⟩ := Option.bind_eq_some_iff.mp hbyte
    obtain ⟨low,hlow,-⟩ := Option.bind_eq_some_iff.mp hbyte
    exact Option.isSome_iff_exists.mpr ⟨low, hlow⟩

/-- Where the check has the model the reply has a digit of the address. -/
theorem License.c1_ne_c5 (hl : l.Widths) (hl' : l'.Widths)
    (hmodel : l.deviceModel = sonoffDeviceModel)
    (hmac : (baseMacParse l'.baseMac).isSome) : hashInput l.c1 ≠ hashInput l'.c5 := by
  have hcheck : byteAt (hashInput l.c1) 53 = 111 := by
    have happ : hashInput l.c1 = l.apikey.chars ++ l.baseMac.chars ++ (l.deviceModel.chars ++
        (l.uiid.chars ++ l.deviceId.chars)) := by simp [hashInput, License.c1]
    have hwidth : (l.apikey.chars ++ l.baseMac.chars).length = 53 := by
      rw [List.length_append]
      exact congrArg₂ (· + ·) hl.apikey hl.baseMac
    rw [happ, byteAt_append_right hwidth.le, hwidth, hmodel]
    rfl
  have hreply : byteAt (hashInput l'.c5) 53 = byteAt l'.baseMac.chars 7 := by
    have happ : hashInput l'.c5 = l'.deviceId.chars ++ l'.apikey.chars ++ (l'.baseMac.chars ++
        (l'.deviceModel.chars ++ l'.uiid.chars)) := by simp [hashInput, License.c5]
    have hwidth : (l'.deviceId.chars ++ l'.apikey.chars).length = 46 := by
      rw [List.length_append]
      exact congrArg₂ (· + ·) hl'.deviceId hl'.apikey
    have hmacWidth : l'.baseMac.chars.length = 17 := hl'.baseMac
    rw [happ, byteAt_append_right (by omega), hwidth, byteAt_append_left (by omega)]
  intro h
  have hdigit := baseMacParse_digit hmac (show 2 < nvdmFactoryBaseMacLen by decide)
  rw [show 2 * 3 + 1 = 7 from rfl, ← hreply, ← h, hcheck] at hdigit
  exact absurd hdigit (by decide)

/-- A write that succeeds, from whatever was stored before, has stored the license of the frame. -/
theorem snfLicenseWrite_storedIn {replySize : ℕ} {hex : CString}
    (h : snfLicenseWrite sha256 json text replySize s = .ok hex t) :
    ∃ l, LicenseFrame sha256 json text l ∧ l.StoredIn t.items := by
  unfold snfLicenseWrite at h
  simp only [bind_eq_ok, require_eq_ok, adaptExcept_eq_ok] at h
  obtain ⟨_,_,⟨-,rfl⟩,⟨l,c1⟩,_,hframe,_,u,hstore,readBack,v,hread,readHex,w,hhash,_,_,⟨-,rfl⟩,
    hreply⟩ := h
  refine ⟨l, licenseFrame_spec hframe, ?_⟩
  have hstored := licenseStore_storedIn hstore
  rw [(readOnly_licenseSha256Hex _ _).items_eq.ok rfl hreply,
    (readOnly_licenseSha256Hex _ _).items_eq.ok rfl hhash,
    readOnly_readLicense.items_eq.ok rfl hread]
  exact hstored

theorem LicenseFrame.accepted (h : LicenseFrame sha256 json text l) : l.Accepted json := by
  obtain ⟨_,frame,_,_,hfields⟩ := h.fields
  exact ⟨⟨frame, hfields⟩, h.model⟩

/-- What reading replies, for any hash: its input is the license's. -/
theorem License.StoredIn.snfLicenseRead (h : l.StoredIn items) (hl : l.Accepted json)
    (hash : List UInt8 → List UInt8) (hdigest : ∀ data, (hash data).length = snfSha256DigestSize)
    {uiidSize modelSize shaSize : ℕ} (huiid : nvdmFactoryUiidStrMaxLen < uiidSize)
    (hmodel : nvdmMatterNameMaxLen < modelSize) (hsha : nvdmFactorySha256HexLen < shaSize) :
    snfLicenseRead hash uiidSize modelSize shaSize ⟨items, .reliable⟩ =
      .ok (l.uiid, l.deviceModel, ⟨hexChars (hash (hashInput l.c5)), hexChars_ne_zero _⟩)
        ⟨items, .reliable⟩ := by
  obtain ⟨frame,hfields⟩ := hl.fields
  have hhex : bytesToHex (hash (hashInput l.c5)) shaSize =
      some ⟨hexChars (hash (hashInput l.c5)), hexChars_ne_zero _⟩ := by
    unfold bytesToHex
    rw [hdigest]
    exact if_neg (by unfold nvdmFactorySha256HexLen at hsha; unfold snfSha256DigestSize; omega)
  exact h.readReply (licenseFields_valid hfields) hl.model hhex huiid hmodel hsha

/-- The hash inputs of two accepted licenses, in whichever order, differ unless they are the same
input of the same license; and whatever was stored before, a write that succeeds leaves a store from
which reading hashes the input of the frame's license. -/
theorem license_hash_input_binds (sha256 : List UInt8 → List UInt8) (json : CJson J) :
    (∀ l l' : License, l.Accepted json → l'.Accepted json →
      (hashInput l.c1 = hashInput l'.c1 ∨ hashInput l.c5 = hashInput l'.c5 → l = l') ∧
        hashInput l.c1 ≠ hashInput l'.c5) ∧
    ∀ (text : CString) (replySize : ℕ) (items : NvdmItem → Option (List UInt8)) (hex : CString)
    (t : NvdmState), snfLicenseWrite sha256 json text replySize ⟨items, .reliable⟩ = .ok hex t →
      ∃ l, LicenseFrame sha256 json text l ∧ ∀ (hash : List UInt8 → List UInt8)
      (uiidSize modelSize shaSize : ℕ),
        (∀ data, (hash data).length = snfSha256DigestSize) → nvdmFactoryUiidStrMaxLen < uiidSize →
        nvdmMatterNameMaxLen < modelSize → nvdmFactorySha256HexLen < shaSize →
        snfLicenseRead hash uiidSize modelSize shaSize ⟨t.items, .reliable⟩ =
          .ok (l.uiid, l.deviceModel, ⟨hexChars (hash (hashInput l.c5)), hexChars_ne_zero _⟩)
            ⟨t.items, .reliable⟩ := by
  constructor
  · intro l l' hl hl'
    obtain ⟨frame,hfields⟩ := hl'.fields
    have hmac : (baseMacParse l'.baseMac).isSome := by
      have hvalid := (licenseFields_valid hfields).1
      simp only [License.isValid, Bool.and_eq_true] at hvalid
      exact hvalid.1.1.2
    refine ⟨?_, License.c1_ne_c5 hl.widths hl'.widths hl.model hmac⟩
    rintro (h | h)
    · exact License.c1_injective hl.widths hl'.widths h
    · exact License.c5_injective hl.widths hl'.widths h
  · intro text replySize items hex t h
    obtain ⟨l,hframe,hstored⟩ := snfLicenseWrite_storedIn h
    exact ⟨l, hframe, fun hash _ _ _ hdigest huiid hmodel hsha =>
      hstored.snfLicenseRead hframe.accepted hash hdigest huiid hmodel hsha⟩

/-- The documented frame is written, and reading hashes its license. -/
theorem license_hash_input_binds_plug : ∃ (t : NvdmState) (l : License),
    snfLicenseWrite Utils.Sha256.sha256 plugJson plugText 65 ⟨fun _ => none, .reliable⟩ =
      .ok plugReply t ∧
    l.Accepted plugJson ∧ hashInput l.c1 ≠ hashInput l.c5 ∧
    snfLicenseRead Utils.Sha256.sha256 11 33 65 ⟨t.items, .reliable⟩ =
      .ok (l.uiid, l.deviceModel,
        ⟨hexChars (Utils.Sha256.sha256 (hashInput l.c5)), hexChars_ne_zero _⟩)
        ⟨t.items, .reliable⟩ := by
  have hwrite : (snfLicenseWrite Utils.Sha256.sha256 plugJson plugText 65).run' ⟨fun _ => none,
    .reliable⟩ =
      some plugReply := by decide +kernel
  obtain ⟨hinputs,hread⟩ := license_hash_input_binds Utils.Sha256.sha256 plugJson
  unfold EStateM.run' EStateM.run at hwrite
  cases h : snfLicenseWrite Utils.Sha256.sha256 plugJson plugText 65 ⟨fun _ => none, .reliable⟩ with
  | error ret t =>
    rw [h] at hwrite
    cases hwrite
  | ok hex t =>
    rw [h] at hwrite
    cases hwrite
    obtain ⟨l,hframe,hread⟩ := hread _ _ _ _ _ h
    have hl := hframe.accepted
    exact ⟨t, l, rfl, hl, (hinputs l l hl hl).2,
      hread _ 11 33 65 Utils.Sha256.sha256_length (by decide) (by decide)
      (by decide)⟩

end Sonoff.Nvdm
