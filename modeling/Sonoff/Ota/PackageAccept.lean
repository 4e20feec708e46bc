import Sonoff.Ota.PackageParse
import Sonoff.Ota.PackageReceive

/-! # Initialise, feed in chunks, finish

The parser's three entry points as one run over the chunks of a package.
-/
namespace Sonoff.OtaParse
open Bytes AesGcm Ota SnfOtaParseContext PackageFormat

variable {G : Type} (sdk : Sdk G)

def feedChunks : SnfOtaParseContext G → List (List UInt8) →
    Option (SnfOtaParseContext G × List SnfOtaPayload)
  | c, [] => some (c, [])
  | c, x :: xs => (feedChunk sdk (x.length + 1) c x).bind fun r =>
      (feedChunks r.1 xs).map fun s => (s.1, r.2 ++ s.2)

def parsePackage (packageSize : ℕ) (fileName : Option (List UInt8)) (flashSize : ℕ)
    (chunks : List (List UInt8)) : Option (SnfOtaErrorCode × List SnfOtaPayload) :=
  let (c, error) := snfOtaParseInit packageSize fileName flashSize
  if error ≠ .none then some (error, [])
  else (feedChunks sdk c chunks).map fun r => (snfOtaParseFinish r.1, r.2)

def nameField (name : List UInt8) : List UInt8 := name ++ List.replicate (32 - name.length) 0

variable {sdk}

theorem feedChunks_eq (hinc : sdk.Incremental) {chunks : List (List UInt8)}
    {c : SnfOtaParseContext G} (h : c.Valid)
    (hn : c.error = .none → chunks.flatten.length ≤ c.packageSize - c.offset) :
    ∃ payloads, feedChunks sdk c chunks = some ((feedBytes sdk c chunks.flatten).1, payloads)
      ∧ placedOf payloads = (feedBytes sdk c chunks.flatten).2 := by
  induction chunks generalizing c with
  | nil => exact ⟨[], rfl, rfl⟩
  | cons x xs ih =>
    rw [List.flatten_cons, List.length_append] at hn
    have hx : c.error = .none → x.length ≤ c.packageSize - c.offset := fun he => by
      have := hn he
      omega
    obtain ⟨ps,hps,hplaced⟩ := feedChunk_eq hinc h hx (Nat.lt_succ_self x.length)
    obtain ⟨qs,hqs,hplaced'⟩ := ih (feedBytes_valid hinc h hx) (fun he => by
      have hc : c.error = .none := feedBytes_error_none he
      obtain ⟨hsize,hoff⟩ := feedBytes_input hinc h hx he
      have := hn hc
      omega)
    refine ⟨ps ++ qs, ?_, ?_⟩
    · simp only [feedChunks, hps, Option.bind_some, hqs, Option.map_some, List.flatten_cons,
        feedBytes_append]
    · rw [List.flatten_cons, feedBytes_append]
      simp only [placedOf, List.flatMap_append] at hplaced hplaced' ⊢
      rw [hplaced, hplaced']

theorem cString_nameField {name : List UInt8} (hnul : ∀ b ∈ name, b ≠ 0) (hlen : name.length ≤ 32) :
    cString ((nameField name).take 32 ++ [0]) = name := by
  have hl : (nameField name).length = 32 := by
    simp only [nameField, List.length_append, List.length_replicate]
    omega
  rw [List.take_of_length_le (by omega), cString_append_zero, nameField, cString_append_zeros hnul]

theorem byteAt_nameField {name : List UInt8} (hne : name ≠ []) (hnul : ∀ b ∈ name, b ≠ 0) :
    byteAt (nameField name) 0 ≠ 0 := by
  cases name with
  | nil => exact absurd rfl hne
  | cons b bs =>
    have hb := hnul b List.mem_cons_self
    simpa [nameField, byteAt] using hb

/-- An acceptable package is long enough for its table and one byte of content,
and its file needs room. -/
theorem initAccepts_of_accepts {p target : List UInt8} {flashSize : ℕ}
    (h : Accepts sdk p target flashSize)
    (hname : byteAt (nameField target) 0 ≠ 0) :
    InitAccepts p.length (nameField target) flashSize := by
  obtain ⟨i,plain,hsel⟩ := h
  have hent := hsel.entries i hsel.index
  have hend := tableEnd_le_entryOffset hsel.entries hsel.index
  have hin := hent.inside
  have hcont := hent.content
  have hfits := hsel.fits
  have hidx := hsel.index
  simp only [PackageFormat.tableEnd] at hend
  exact ⟨by omega, by omega, hname⟩

/-- Whatever the chunks, the run ends, with success exactly for a package that
the format accepts for the target, and a successful run has emitted the selected
plaintext. -/
theorem parsePackage_spec (hinc : sdk.Incremental) {p target : List UInt8}
    (hp : p.length < 4294967296) (hne : target ≠ []) (hnul : ∀ b ∈ target, b ≠ 0)
    (hlen : target.length ≤ 32) (flashSize : ℕ)
    {chunks : List (List UInt8)} (hcut : chunks.flatten = p) :
    ∃ error payloads, parsePackage sdk p.length (some (nameField target)) flashSize chunks =
      some (error, payloads) ∧ (error = .none ↔ Accepts sdk p target flashSize)
      ∧ ∀ i plain, Selects sdk p target flashSize i plain → placedOf payloads = plain.zipIdx 0 := by
  have hname := byteAt_nameField hne hnul
  unfold parsePackage
  rcases snfOtaParseInit_cases G p.length (some (nameField target))
    flashSize with ⟨name,hn,hinit,he⟩ | ⟨hno,he⟩
  · cases hn
    have hv : (initContext p.length (nameField target) flashSize : SnfOtaParseContext G).Valid :=
      initContext_valid hp hinit
    obtain ⟨payloads,hfeed,hplaced⟩ := @feedChunks_eq _ _ hinc chunks _ hv (fun _ => by
      rw [hcut]
      exact Nat.le_refl _)
    obtain ⟨hsound,hcomplete⟩ :=
      feed_package hinc hv rfl rfl rfl rfl rfl rfl (cString_nameField hnul hlen)
    rw [hcut] at hfeed hplaced
    refine ⟨snfOtaParseFinish
      (feedBytes sdk (initContext p.length (nameField target) flashSize) p).1, payloads,
      ?_, ⟨hsound, ?_⟩, ?_⟩
    · simp only [he, hfeed]
      rfl
    · rintro ⟨i,plain,hsel⟩
      exact (hcomplete i plain hsel).1
    · intro i plain hsel
      rw [hplaced, (hcomplete i plain hsel).2]
  · refine ⟨.invalidParam, [], by simp [he], iff_of_false (by simp) ?_, ?_⟩
    · exact fun h => hno _ rfl (initAccepts_of_accepts h hname)
    · exact fun i plain hsel => absurd (initAccepts_of_accepts ⟨i,plain,hsel⟩ hname) (hno _ rfl)

/-- The parser accepts exactly its format: whatever the chunks, initialising,
feeding the whole package and finishing ends, and it ends with success if and
only if the package is acceptable for the target. -/
theorem parsePackage_accepts (hinc : sdk.Incremental) {p target : List UInt8}
    (hp : p.length < 4294967296) (hne : target ≠ []) (hnul : ∀ b ∈ target, b ≠ 0)
    (hlen : target.length ≤ 32) (flashSize : ℕ)
    (chunks : List (List UInt8)) (hcut : chunks.flatten = p) :
    ∃ error payloads, parsePackage sdk p.length (some (nameField target)) flashSize chunks =
      some (error, payloads) ∧ (error = .none ↔ Accepts sdk p target flashSize) := by
  obtain ⟨error,payloads,hparse,hiff,_⟩ := parsePackage_spec hinc hp hne hnul hlen flashSize hcut
  exact ⟨error, payloads, hparse, hiff⟩

/-- Cut inside the head and inside its entry, the package of one byte is accepted. -/
theorem parsePackage_accepts_byte :
    ∃ payloads, parsePackage softSdk bytePackage.length (some (nameField snfOtaDefaultFileName))
      4096 [bytePackage.take 10, (bytePackage.drop 10).take 60, bytePackage.drop 70] =
      some (.none, payloads) ∧ Accepts softSdk bytePackage snfOtaDefaultFileName 4096 := by
  obtain ⟨error,payloads,hparse,haccepts⟩ := parsePackage_accepts softSdk_incremental
    (show bytePackage.length < 4294967296 by decide +kernel)
    (show snfOtaDefaultFileName ≠ [] by decide) (by decide +kernel) (by decide) 4096
    [bytePackage.take 10, (bytePackage.drop 10).take 60, bytePackage.drop 70] (by decide +kernel)
  have hrun : (parsePackage softSdk bytePackage.length (some (nameField snfOtaDefaultFileName)) 4096
      [bytePackage.take 10, (bytePackage.drop 10).take 60, bytePackage.drop 70]).map Prod.fst =
        some .none := by
    decide +kernel
  rw [hparse] at hrun
  have hok : error = .none := Option.some.inj hrun
  subst hok
  exact ⟨payloads, hparse, haccepts.mp rfl⟩

end Sonoff.OtaParse
