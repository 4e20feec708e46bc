import Sonoff.Nvdm.License
import Sonoff.Utils.Sha256

/-! # One license at a time

Clearing starts with the device id, writing ends with the uiid. So while the five
items belong to no single license, one of these two is the empty text, which no
check lets through.
-/
namespace Sonoff.Nvdm
open Fallible

variable {sha256 : List UInt8 → List UInt8} {J : Type} {json : CJson J}
  {items : NvdmItem → Option (List UInt8)} {l : License} {text : CString} {s : NvdmState}

structure License.StoredIn (l : License) (items : NvdmItem → Option (List UInt8)) : Prop where
  deviceId : items .deviceId = some l.deviceId.bytes
  apikey : items .factoryApikey = some l.apikey.bytes
  baseMac : items .baseMac = some l.baseMac.bytes
  deviceModel : items .deviceModel = some l.deviceModel.bytes
  uiid : items .deviceUiid = some l.uiid.bytes

/-- The text is a frame for this device, and `l` its license. -/
structure LicenseFrame (sha256 : List UInt8 → List UInt8) (json : CJson J) (text : CString)
    (l : License) : Prop where
  fields : ∃ root frame, json.parse text = some root ∧
    json.getObjectItem root "license_frame" = some frame ∧
    licenseFields json frame = some l
  check : ∃ root check, json.parse text = some root ∧
    stringMember json root "sha256_check" = some check ∧
    hexBytesDecode check snfSha256DigestSize = hexBytesDecode
      ⟨hexChars (sha256 (l.c1.flatMap CString.chars)), hexChars_ne_zero _⟩ snfSha256DigestSize
  model : l.deviceModel = sonoffDeviceModel

def Erased (items : NvdmItem → Option (List UInt8)) : Prop :=
  items .deviceId = some CString.empty.bytes ∨ items .deviceUiid = some CString.empty.bytes

theorem factoryStrRead_readValue {item : NvdmItem} {size : ℕ} {value : CString} {t : NvdmState}
    (h : factoryStrRead item size s = .ok value t) :
    readValue s.items item size = some value ∧ t.items = s.items := by
  obtain ⟨_,u,hr,h⟩ := bind_eq_ok.mp h
  obtain ⟨-,rfl⟩ := require_eq_ok.mp hr
  unfold snfNvdmReadStr at h
  split at h
  · cases h
  · split at h
    · split at h
      · cases h
        exact ⟨‹_›, rfl⟩
      · cases h
    · cases h

theorem readLicense_readValue {t : NvdmState} (h : readLicense s = .ok l t) :
    readValue s.items .deviceId (nvdmFactoryDeviceIdLen + 1) = some l.deviceId ∧
      readValue s.items .deviceUiid (nvdmFactoryUiidStrMaxLen + 1) = some l.uiid := by
  unfold readLicense at h
  simp only [bind_eq_ok, pure_eq_ok] at h
  obtain ⟨_,_,hid,_,_,hapikey,_,_,hmac,_,_,hmodel,_,_,huiid,rfl,-⟩ := h
  obtain ⟨hid,hitems⟩ := factoryStrRead_readValue hid
  refine ⟨hid, ?_⟩
  rw [← hitems, ← (factoryStrRead_readValue hapikey).2, ← (factoryStrRead_readValue hmac).2,
    ← (factoryStrRead_readValue hmodel).2]
  exact (factoryStrRead_readValue huiid).1

theorem snfLicenseRead_not_erased {uiidSize modelSize shaSize : ℕ}
    {out : CString × CString × CString}
    {t : NvdmState} (h : snfLicenseRead sha256 uiidSize modelSize shaSize s = .ok out t) :
    ¬ Erased s.items := by
  unfold snfLicenseRead at h
  simp only [bind_eq_ok, require_eq_ok] at h
  obtain ⟨_,_,⟨-,rfl⟩,l,_,hl,_,_,⟨hvalid,-⟩,-⟩ := h
  obtain ⟨hid,huiid⟩ := readLicense_readValue hl
  simp only [License.isValid, Bool.and_eq_true, decide_eq_true_eq] at hvalid
  rintro (he | he)
  · rw [readValue_empty he (by decide)] at hid
    rw [← Option.some.inj hid] at hvalid
    exact absurd hvalid.1.1.1.1 (by decide)
  · rw [readValue_empty he (by decide)] at huiid
    rw [← Option.some.inj huiid] at hvalid
    exact hvalid.2 rfl

theorem factoryStrRead_reliable {item : NvdmItem} {size : ℕ} {value : CString}
    (h : items item = some value.bytes) (hlen : value.length < size) :
    factoryStrRead item size ⟨items, .reliable⟩ = .ok value ⟨items, .reliable⟩ := by
  refine bind_eq_ok.mpr ⟨(), _, require_eq_ok.mpr ⟨by simpa using Nat.ne_zero_of_lt hlen, rfl⟩, ?_⟩
  unfold snfNvdmReadStr
  rw [if_neg (Nat.ne_zero_of_lt hlen), readValue_written h hlen]
  rfl

theorem License.StoredIn.read (h : l.StoredIn items) (hvalid : l.isValid = true)
    (hmodel : l.deviceModel.length < nvdmMatterNameMaxLen + 1)
    (huiid : l.uiid.length < nvdmFactoryUiidStrMaxLen + 1) :
    readLicense ⟨items, .reliable⟩ = .ok l ⟨items, .reliable⟩ := by
  simp only [License.isValid, Bool.and_eq_true, decide_eq_true_eq] at hvalid
  obtain ⟨⟨⟨⟨hid,hapikey⟩,hmac⟩,-⟩,-⟩ := hvalid
  obtain ⟨mac,hmac⟩ := Option.isSome_iff_exists.mp hmac
  unfold readLicense
  simp only [bind_eq_ok]
  exact ⟨_, _, factoryStrRead_reliable h.deviceId (by omega), _, _,
    factoryStrRead_reliable h.apikey (by rw [factoryApikeyIsValid_length hapikey]; decide), _, _,
    factoryStrRead_reliable h.baseMac (by rw [baseMacParse_length hmac]; decide), _, _,
    factoryStrRead_reliable h.deviceModel hmodel, _, _, factoryStrRead_reliable h.uiid huiid, rfl⟩

theorem factoryStrWrite_items {item : NvdmItem} {value : CString} {t : NvdmState} {u : Unit}
    (h : factoryStrWrite item value s = .ok u t) :
    t.items = Function.update s.items item (some value.bytes) := by
  unfold factoryStrWrite snfNvdmWriteStr at h
  rw [if_neg value.bytes_ne_nil] at h
  split at h
  · cases h
    rfl
  · cases h

theorem snfLicenseClear_uiid {t : NvdmState} {u : Unit} (h : snfLicenseClear s = .ok u t) :
    t.items .deviceUiid = some CString.empty.bytes := by
  unfold snfLicenseClear at h
  simp only [bind_eq_ok] at h
  obtain ⟨_,_,-,_,_,-,_,_,-,_,_,-,huiid⟩ := h
  rw [factoryStrWrite_items huiid]
  exact Function.update_self _ _ _

/-- Stopped before the device id is empty nothing has changed. -/
theorem snfLicenseClear_triple (items : NvdmItem → Option (List UInt8)) :
    Triple (fun s => s.items = items) snfLicenseClear
    (fun _ s => s.items .deviceUiid = some CString.empty.bytes) (fun _ s => s.items = items ∨
      Erased s.items) := by
  have hnext : ∀ {item : NvdmItem}, item ≠ .deviceId →
      Triple (fun s => s.items .deviceId = some CString.empty.bytes) (factoryStrWrite item .empty)
        (fun _ s => s.items .deviceId = some CString.empty.bytes) (fun _ s => s.items = items ∨
          Erased s.items) :=
    fun hne => snfNvdmWriteStr_triple (fun s hs _ =>
      (Function.update_of_ne (Ne.symm hne) _ _).trans hs)
      fun s hs _ => Or.inr (Or.inl hs)
  have hrun : Triple (fun s => s.items = items) snfLicenseClear
      (fun _ s => s.items .deviceId = some CString.empty.bytes) (fun _ s => s.items = items ∨
        Erased s.items) := by
    unfold snfLicenseClear
    refine (snfNvdmWriteStr_triple (Q := fun _ s => s.items .deviceId = some CString.empty.bytes)
      (fun s _ _ => Function.update_self _ _ _) fun s hs _ => Or.inl hs).bind fun _ => ?_
    exact (hnext (by decide)).bind fun _ => (hnext (by decide)).bind fun _ =>
        (hnext (by decide)).bind fun _ =>
      hnext (by decide)
  exact (hrun.andOk fun _ _ _ _ h => snfLicenseClear_uiid h).consequence (fun _ h => h)
    (fun _ _ h => h.2) fun _ _ h => h

theorem licenseStore_storedIn {t : NvdmState} {u : Unit} (h : licenseStore l s = .ok u t) :
    l.StoredIn t.items := by
  unfold licenseStore at h
  simp only [bind_eq_ok] at h
  obtain ⟨_,_,hid,_,_,hapikey,_,_,hmac,_,_,hmodel,huiid⟩ := h
  rw [factoryStrWrite_items huiid, factoryStrWrite_items hmodel, factoryStrWrite_items hmac,
    factoryStrWrite_items hapikey, factoryStrWrite_items hid]
  constructor <;> simp

/-- The uiid stays empty until the last write. -/
theorem licenseStore_triple :
    Triple (fun s => s.items .deviceUiid = some CString.empty.bytes) (licenseStore l)
    (fun _ s => l.StoredIn s.items) (fun _ s => Erased s.items) := by
  have hnext : ∀ {item : NvdmItem} {value : CString}, item ≠ .deviceUiid →
      Triple (fun s => s.items .deviceUiid = some CString.empty.bytes) (factoryStrWrite item value)
        (fun _ s => s.items .deviceUiid = some CString.empty.bytes) (fun _ s => Erased s.items) :=
    fun hne => snfNvdmWriteStr_triple (fun s hs _ =>
      (Function.update_of_ne (Ne.symm hne) _ _).trans hs)
      fun s hs _ => Or.inr hs
  have hrun : Triple (fun s => s.items .deviceUiid = some CString.empty.bytes) (licenseStore l)
      (fun _ _ => True) (fun _ s => Erased s.items) := by
    unfold licenseStore
    refine (hnext (by decide)).bind fun _ => (hnext (by decide)).bind fun _ =>
      (hnext (by decide)).bind fun _ => ?_
    exact (hnext (by decide)).bind fun _ =>
      snfNvdmWriteStr_triple (fun _ _ _ => trivial) fun s hs _ => Or.inr hs
  exact (hrun.andOk fun _ _ _ _ h => licenseStore_storedIn h).consequence (fun _ h => h)
    (fun _ _ h => h.2) fun _ _ h => h

theorem readOnly_licenseSha256Hex (parts : List CString) (hexSize : ℕ) :
    ReadOnly (licenseSha256Hex sha256 parts hexSize) := ReadOnly.sdk.bind fun _ => .ofOption _ _

theorem readOnly_readLicense : ReadOnly readLicense :=
  (ReadOnly.factoryRead _ _).bind fun _ => (ReadOnly.factoryRead _ _).bind fun _ =>
    (ReadOnly.factoryRead _ _).bind fun _ => (ReadOnly.factoryRead _ _).bind fun _ =>
    (ReadOnly.factoryRead _ _).bind fun _ => .pure _

theorem readOnly_snfLicenseIsValid (sha256 : List UInt8 → List UInt8) :
    ReadOnly (snfLicenseIsValid sha256) :=
  (ReadOnly.require _ _).bind fun _ => readOnly_readLicense.bind fun _ =>
  (ReadOnly.require _ _).bind fun _ =>
    (readOnly_licenseSha256Hex _ _).bind fun _ => .pure _

theorem readOnly_licenseFrame : ReadOnly (licenseFrame sha256 json text) :=
  (ReadOnly.require _ _).bind fun _ => (ReadOnly.adaptExcept .malloc).bind fun _ =>
    (ReadOnly.ofOption _ _).bind fun _ => (ReadOnly.ofOption _ _).bind fun _ =>
    (ReadOnly.require _ _).bind fun _ =>
    (ReadOnly.ofOption _ _).bind fun _ => (ReadOnly.adaptExcept .malloc).bind fun _ =>
    (ReadOnly.require _ _).bind fun _ => (ReadOnly.ofOption _ _).bind fun _ =>
    (ReadOnly.ofOption _ _).bind fun _ =>
    (ReadOnly.ofOption _ _).bind fun _ =>
    (ReadOnly.adaptExcept (readOnly_licenseSha256Hex _ _)).bind fun _ =>
    (ReadOnly.ofOption _ _).bind fun _ => (ReadOnly.require _ _).bind fun _ =>
    (ReadOnly.require _ _).bind fun _ =>
    .pure _

theorem licenseSha256Hex_chars {parts : List CString} {hexSize : ℕ} {hex : CString} {t : NvdmState}
    (h : licenseSha256Hex sha256 parts hexSize s = .ok hex t) :
    bytesToHex (sha256 (parts.flatMap CString.chars)) hexSize = some hex := by
  obtain ⟨_,_,-,h⟩ := bind_eq_ok.mp h
  exact (ofOption_eq_ok.mp h).1

theorem licenseFrame_spec {r : License × CString} {t : NvdmState}
    (h : licenseFrame sha256 json text s = .ok r t) :
    LicenseFrame sha256 json text r.1 := by
  unfold licenseFrame at h
  simp only [bind_eq_ok, require_eq_ok, ofOption_eq_ok, adaptExcept_eq_ok, pure_eq_ok,
    decide_eq_true_eq] at h
  obtain ⟨_,_,-,_,_,-,root,_,⟨hroot,-⟩,frame,_,⟨hframe,-⟩,_,_,-,_,_,-,_,_,-,_,_,-,l',_,⟨hfields,-⟩,
    check,_,⟨hcheck,-⟩,
    input,_,⟨hinput,-⟩,hex,_,hhex,expect,_,⟨hexpect,-⟩,_,_,⟨heq,-⟩,_,_,⟨hmodel,-⟩,rfl,-⟩ := h
  refine ⟨⟨root, frame, hroot, hframe, hfields⟩, ⟨root, check, hroot, hcheck, ?_⟩, hmodel⟩
  rw [← bytesToHex_chars (licenseSha256Hex_chars hhex), hinput, hexpect, heq]

theorem licenseFields_valid {frame : J} (h : licenseFields json frame = some l) :
    l.isValid = true ∧ l.uiid.length < nvdmFactoryUiidStrMaxLen + 1 := by
  unfold licenseFields at h
  simp only [Option.bind_eq_bind, Option.bind_eq_some_iff] at h
  obtain ⟨_,-,_,-,_,-,_,-,value,-,h⟩ := h
  split at h
  case isTrue hc =>
    cases h
    refine ⟨?_, hc.2.2.2.2.2⟩
    simp [License.isValid, hc.1, hc.2.1, hc.2.2.1, hc.2.2.2.1, decimal_ne_nil]
  case isFalse => cases h

def FrameOrNone (sha256 : List UInt8 → List UInt8) (json : CJson J) (text : CString)
    (items : NvdmItem → Option (List UInt8)) : Prop :=
  Erased items ∨ ∃ l, LicenseFrame sha256 json text l ∧ l.StoredIn items

theorem snfLicenseWrite_triple (sha256 : List UInt8 → List UInt8) (json : CJson J) (text : CString)
    (replySize : ℕ) : Triple (fun s => s.items .deviceUiid = some CString.empty.bytes)
    (snfLicenseWrite sha256 json text replySize)
      (fun hex s => ∃ l, LicenseFrame sha256 json text l ∧ l.StoredIn s.items ∧
        bytesToHex (sha256 (l.c5.flatMap CString.chars)) replySize = some hex)
      (fun _ s => FrameOrNone sha256 json text s.items) := by
  have herased : ∀ items :
    NvdmItem → Option (List UInt8), items .deviceUiid = some CString.empty.bytes →
      FrameOrNone sha256 json text items := fun _ h => Or.inl (Or.inr h)
  unfold snfLicenseWrite
  refine ((ReadOnly.require _ _).keepsItems herased).bind fun _ => ?_
  refine ((readOnly_licenseFrame.keepsItems herased).andOk fun _ _ _ _ h =>
    licenseFrame_spec h).bind fun r => .given fun hframe => ?_
  have hstored : ∀ items, r.1.StoredIn items → FrameOrNone sha256 json text items := fun _ h =>
    Or.inr ⟨_, hframe, h⟩
  refine (Triple.adaptExcept <| licenseStore_triple.consequence (fun _ h => h) (fun _ _ h => h)
    fun _ _ h => Or.inl h).bind fun _ => ?_
  refine ((ReadOnly.adaptExcept readOnly_readLicense).keepsItems hstored).bind fun readBack => ?_
  refine ((ReadOnly.adaptExcept (readOnly_licenseSha256Hex _ _)).keepsItems hstored).bind
    fun readHex => ?_
  refine ((ReadOnly.require _ _).keepsItems hstored).bind fun _ => ?_
  refine (((ReadOnly.adaptExcept (readOnly_licenseSha256Hex _ _)).keepsItems hstored).andOk
      fun _ _ _ _ h =>
    licenseSha256Hex_chars (adaptExcept_eq_ok.mp h)).consequence (fun _ h => h) ?_ fun _ _ h => h
  rintro hex s ⟨h, hhex⟩
  exact ⟨r.1, hframe, h, hhex⟩

/-- After the update with this text the license that can be read is the one from before, all
items being as they were, or the frame's, and a success has stored the frame's. -/
structure LicenseConsistent (sha256 : List UInt8 → List UInt8) (json : CJson J) (text : CString)
    (s : NvdmState) (r : LicenseReply × NvdmState) : Prop where
  oneLicense : ∀ (outcomes : Outcomes) (uiidSize modelSize shaSize : ℕ)
    (out : CString × CString × CString)
    (t : NvdmState), snfLicenseRead sha256 uiidSize modelSize shaSize ⟨r.2.items, outcomes⟩ =
      .ok out t →
    r.2.items = s.items ∨ ∃ l, LicenseFrame sha256 json text l ∧ l.StoredIn r.2.items
  success : ∀ hex, r.1 = .ok hex → ∃ l, LicenseFrame sha256 json text l ∧ l.StoredIn r.2.items ∧
    ∀ uiidSize modelSize shaSize : ℕ, nvdmFactoryUiidStrMaxLen < uiidSize →
      nvdmMatterNameMaxLen < modelSize → nvdmFactorySha256HexLen < shaSize →
      snfLicenseRead sha256 uiidSize modelSize shaSize ⟨r.2.items, .reliable⟩ =
        .ok (l.uiid, l.deviceModel, hex) ⟨r.2.items, .reliable⟩

theorem LicenseFrame.isValid (h : LicenseFrame sha256 json text l) :
    l.isValid = true ∧ l.uiid.length < nvdmFactoryUiidStrMaxLen + 1 := by
  obtain ⟨_,_,_,_,hfields⟩ := h.fields
  exact licenseFields_valid hfields

/-- What reading replies of a stored license, with the check value of any hash. -/
theorem License.StoredIn.readReply (h : l.StoredIn items)
    (hvalid : l.isValid = true ∧ l.uiid.length < nvdmFactoryUiidStrMaxLen + 1)
    (hname : l.deviceModel = sonoffDeviceModel)
    {hash : List UInt8 → List UInt8} {uiidSize modelSize shaSize : ℕ} {hex : CString}
    (hhex : bytesToHex (hash (l.c5.flatMap CString.chars)) shaSize = some hex)
    (huiid : nvdmFactoryUiidStrMaxLen < uiidSize) (hmodel : nvdmMatterNameMaxLen < modelSize)
    (hsha : nvdmFactorySha256HexLen < shaSize) :
    snfLicenseRead hash uiidSize modelSize shaSize ⟨items, .reliable⟩ =
      .ok (l.uiid, l.deviceModel, hex) ⟨items, .reliable⟩ := by
  have hread := h.read hvalid.1 (by rw [hname]; decide) hvalid.2
  unfold snfLicenseRead
  simp only [bind_eq_ok, require_eq_ok, pure_eq_ok]
  refine ⟨(), _, ⟨by simp [huiid, hmodel, hsha], rfl⟩, l, _, hread, (), _, ⟨hvalid.1, rfl⟩, hex, _,
    ?_, rfl, rfl⟩
  exact bind_eq_ok.mpr ⟨(), _, rfl, ofOption_eq_ok.mpr ⟨hhex, rfl⟩⟩

theorem LicenseFrame.read (h : LicenseFrame sha256 json text l) (hstored : l.StoredIn items)
    {hex : CString} (hhex :
    bytesToHex (sha256 (l.c5.flatMap CString.chars)) (nvdmFactorySha256HexLen + 1) = some hex)
    {uiidSize modelSize shaSize : ℕ} (huiid : nvdmFactoryUiidStrMaxLen < uiidSize)
    (hmodel : nvdmMatterNameMaxLen < modelSize) (hsha : nvdmFactorySha256HexLen < shaSize) :
    snfLicenseRead sha256 uiidSize modelSize shaSize ⟨items, .reliable⟩ =
      .ok (l.uiid, l.deviceModel, hex) ⟨items, .reliable⟩ := by
  have hhex' : bytesToHex (sha256 (l.c5.flatMap CString.chars)) shaSize = some hex := by
    rw [bytesToHex_chars hhex]
    unfold bytesToHex at hhex ⊢
    split at hhex
    · cases hhex
    · exact if_neg (by omega)
  exact hstored.readReply h.isValid h.model hhex' huiid hmodel hsha

theorem LicenseConsistent.failed {t : NvdmState} (kind reason : String)
    (h : t.items = s.items ∨ FrameOrNone sha256 json text t.items) :
    LicenseConsistent sha256 json text s (.error kind reason, t) where
  oneLicense := by
    intro outcomes uiidSize modelSize shaSize out u hread
    rcases h with h | herased | hframe
    · exact Or.inl h
    · exact absurd herased (snfLicenseRead_not_erased (s := ⟨t.items, outcomes⟩) hread)
    · exact Or.inr hframe
  success := nofun

theorem licenseReply_error (ret : SnfLicenseRet) :
    ∃ kind reason, licenseReply ret = .error kind reason := by
  cases ret <;> exact ⟨_, _, rfl⟩

theorem licenseUpdate_consistent :
    LicenseConsistent sha256 json text s (licenseUpdate sha256 json text s) := by
  have hvalid := (readOnly_snfLicenseIsValid sha256).items_eq s rfl
  unfold licenseUpdate
  cases hv : snfLicenseIsValid sha256 s with
  | ok _ t =>
    rw [hv] at hvalid
    exact .failed _ _ (Or.inl hvalid)
  | error _ t =>
    rw [hv] at hvalid
    have hclear := snfLicenseClear_triple s.items t hvalid
    dsimp only
    cases hc : snfLicenseClear t with
    | error _ u =>
      rw [hc] at hclear
      exact .failed _ _ (hclear.imp_right Or.inl)
    | ok _ u =>
      rw [hc] at hclear
      have hwrite := snfLicenseWrite_triple sha256 json text (nvdmFactorySha256HexLen + 1) u hclear
      dsimp only
      cases hw : snfLicenseWrite sha256 json text (nvdmFactorySha256HexLen + 1) u with
      | error ret v =>
        rw [hw] at hwrite
        obtain ⟨kind,reason,hreply⟩ := licenseReply_error ret
        dsimp only
        rw [hreply]
        exact .failed _ _ (Or.inr hwrite)
      | ok hex v =>
        rw [hw] at hwrite
        obtain ⟨l,hframe,hstored,hhex⟩ := hwrite
        refine ⟨fun _ _ _ _ _ _ _ => Or.inr ⟨l, hframe, hstored⟩, fun hex' he => ?_⟩
        cases he
        exact ⟨l, hframe, hstored, fun _ _ _ hu hm hs => hframe.read hstored hhex hu hm hs⟩

/-- The command line carries the text; a refused line leaves the device as it was. -/
theorem license_consistent (sha256 : List UInt8 → List UInt8) (json : CJson J) (line : List UInt8)
    (argv : List ℕ) (s : NvdmState) :
    LicenseConsistent sha256 json
      (CString.ofBuffer ((restoreSeparators argv line).drop (argv.getD 2 0))) s
      (atLicenseWriteCommand sha256 json line argv s) := by
  unfold atLicenseWriteCommand
  split
  · exact .failed _ _ (Or.inl rfl)
  · dsimp only
    split
    · exact .failed _ _ (Or.inl rfl)
    · split
      · exact .failed _ _ (Or.inl rfl)
      · exact licenseUpdate_consistent

def plugMembers : List String :=
  ["\x7b\"deviceid\":\"0000000001\"", ",\"factory_apikey\":\"00000000",
    "-0000-4000-8000-000000000001\"",
    ",\"base_mac\":", "\"02:00:00:00:00:01\"", ",\"device_model\":\"onoff_plug\"",
      ",\"uiid\":77\x7d"]

def plugCheck : List String :=
  ["7f690fdee0d77166a6", "51dbc30bb437a2390604118", "c0ddc1e4d9cd738717002f4"]

/-- A text in short parts, which evaluate faster. -/
def plugBytes (parts : List String) : List UInt8 := parts.flatMap fun part =>
    (CString.ascii part).chars

def plugText : CString :=
  .ofBuffer (plugBytes (["\x7b\"license_frame_len\":150", ",\"license_frame\":"] ++ plugMembers ++
    [",\"sha256_check\":\""] ++ plugCheck ++ ["\"\x7d"]))

inductive PlugItem
  | root
  | frame
  | text (parts : List String)
  | number (value : Int)

def PlugItem.member : PlugItem → String → Option PlugItem
  | .root, "license_frame_len" => some (.number 150)
  | .root, "license_frame" => some .frame
  | .root, "sha256_check" => some (.text plugCheck)
  | .frame, "deviceid" => some (.text ["0000000001"])
  | .frame, "factory_apikey" => some (.text ["00000000-0000-4000", "-8000-000000000001"])
  | .frame, "base_mac" => some (.text ["02:00:00:00:00:01"])
  | .frame, "device_model" => some (.text ["onoff_plug"])
  | .frame, "uiid" => some (.number 77)
  | _, _ => none

/-- The frame that the documentation of the command has as its example. -/
def plugJson : CJson PlugItem where
  parse text := if text = plugText then some .root else none
  getObjectItem := PlugItem.member
  printUnformatted _ := .ofBuffer (plugBytes plugMembers)
  type
    | .root | .frame => .object
    | .text _ => .string
    | .number _ => .number
  valuestring
    | .text parts => some (.ofBuffer (plugBytes parts))
    | _ => none
  valueint
    | .number value => value
    | _ => 0

def plugLine : List UInt8 :=
  [["AT+LICENSE_WRITE"], ["274"], ["\x7b\"license_frame_len\":150"], ["\"license_frame"],
    [":\x7b\"deviceid\":\"0000000001\""], ["\"factory_apikey"],
      [":\"00000000-0000", "-4000-8000-000000000001\""],
    ["\"base_mac"], [":\"02:00:00:00:00:01\""], ["\"device_model"], [":\"onoff_plug\""], ["\"uiid"],
      [":77\x7d"],
    ["\"sha256_check"], [":\""] ++ plugCheck ++ ["\"\x7d"]].flatMap fun parts =>
      plugBytes parts ++ [0]

def plugArgv : List ℕ := [0, 17, 21, 47, 61, 88, 103, 144, 153, 175, 188, 203, 208, 214, 227]

def plugReply : CString :=
  .ofBuffer (plugBytes ["e1869dd33653b1c862ade", "82c170b8c6051e614176899", "eabdbaf0647bfdc1c235"])

/-- The documented reply, and what reading replies from then on. -/
theorem license_consistent_plug : ∃ t l,
    atLicenseWriteCommand Utils.Sha256.sha256 plugJson plugLine plugArgv ⟨fun _ => none,
      .reliable⟩ = (.ok plugReply, t) ∧
    LicenseFrame Utils.Sha256.sha256 plugJson plugText l ∧ l.StoredIn t.items ∧
    snfLicenseRead Utils.Sha256.sha256 11 33 65 ⟨t.items, .reliable⟩ =
      .ok (l.uiid, l.deviceModel, plugReply) ⟨t.items, .reliable⟩ := by
  have hreply : (atLicenseWriteCommand Utils.Sha256.sha256 plugJson plugLine plugArgv
      ⟨fun _ => none, .reliable⟩).1 = .ok plugReply := by decide +kernel
  have htext : CString.ofBuffer ((restoreSeparators plugArgv plugLine).drop (plugArgv.getD 2 0)) =
      plugText := by
    decide +kernel
  have hconsistent :=
    license_consistent Utils.Sha256.sha256 plugJson plugLine plugArgv ⟨fun _ => none, .reliable⟩
  rw [htext] at hconsistent
  generalize atLicenseWriteCommand Utils.Sha256.sha256 plugJson plugLine plugArgv ⟨fun _ => none,
    .reliable⟩ = r at hreply hconsistent
  obtain ⟨reply,t⟩ := r
  obtain rfl : reply = .ok plugReply := hreply
  obtain ⟨l,hframe,hstored,hread⟩ := hconsistent.success _ rfl
  exact ⟨t, l, rfl, hframe, hstored, hread _ _ _ (by decide) (by decide) (by decide)⟩

end Sonoff.Nvdm
