import Mathlib.Data.List.Flatten
import Sonoff.Ota.ChannelCore

/-! # The bytes of an upload

What an upload hands to the core is the body of its request, one chunk behind the other. The body
begins behind the first end mark, wherever the connection cuts the request into pieces.
-/
namespace Sonoff.Ota
open Bytes AesGcm NorFlash OtaParse Threads Machine

variable {G : Type} {sdk : Sdk G} {s t : ChannelState G} {u : HttpUpload} {written filled : ℕ}

/-- The end mark lies within the data. -/
theorem otaHttpFindHeaderEndFrom_bounds {index : ℕ} {data : List UInt8}
    (h : otaHttpFindHeaderEndFrom index data ≠ 0) :
    httpHeaderEnd.length ≤ data.length ∧
      otaHttpFindHeaderEndFrom index data ≤ index + data.length := by
  induction data generalizing index with
  | nil => exact absurd rfl h
  | cons byte data ih =>
    simp only [otaHttpFindHeaderEndFrom] at h ⊢
    split
    case isTrue hmark =>
      have hlen := congrArg List.length hmark
      rw [List.length_take] at hlen
      exact ⟨by omega, by omega⟩
    case isFalse =>
      rw [if_neg ‹_›] at h
      obtain ⟨hlen,hle⟩ := ih h
      rw [List.length_cons]
      exact ⟨by omega, by omega⟩

theorem otaHttpFindHeaderEndFrom_append {index : ℕ} {data : List UInt8} (rest : List UInt8)
    (h : otaHttpFindHeaderEndFrom index data ≠ 0) :
    otaHttpFindHeaderEndFrom index (data ++ rest) = otaHttpFindHeaderEndFrom index data := by
  induction data generalizing index with
  | nil => exact absurd rfl h
  | cons byte data ih =>
    have hlen := (otaHttpFindHeaderEndFrom_bounds h).1
    simp only [otaHttpFindHeaderEndFrom, List.cons_append] at h ⊢
    rw [← List.cons_append, List.take_append_of_le_length hlen]
    split
    · rfl
    · rw [if_neg ‹_›] at h
      exact ih h

theorem otaHttpParseDigits_lt {number result : ℕ} {data : List UInt8} (hn : number < 4294967296)
    (h : otaHttpParseDigits number data = some result) : result < 4294967296 := by
  induction data generalizing number with
  | nil =>
    cases h
    exact hn
  | cons value rest ih =>
    simp only [otaHttpParseDigits] at h
    split at h
    · cases h
    · split at h
      · cases h
      · have := value.toNat_lt
        exact ih (by omega) h

theorem otaHttpContentLengthOf_lt {found : Option ℕ} {lines : List (List UInt8)} {contentLength : ℕ}
    (hfound : ∀ number, found = some number → number < 4294967296)
    (h : otaHttpContentLengthOf found lines = some contentLength) : contentLength < 4294967296 := by
  induction lines generalizing found with
  | nil => exact hfound contentLength h
  | cons line lines ih =>
    simp only [otaHttpContentLengthOf] at h
    split at h
    · split at h
      case h_1 number _ hparse =>
        refine ih ?_ h
        rintro _ ⟨⟩
        unfold otaHttpParseUint32 at hparse
        split at hparse
        · cases hparse
        · split at hparse
          · split at hparse <;> cases hparse
            exact @otaHttpParseDigits_lt 0 _ _ (by decide) ‹_›
          · cases hparse
      · cases h
    · exact ih hfound h

theorem otaHttpParseContentLength_lt {headers : List UInt8} {contentLength : ℕ}
    (h : otaHttpParseContentLength headers = some contentLength) : contentLength < 4294967296 := by
  unfold otaHttpParseContentLength at h
  split at h
  · cases h
  · exact otaHttpContentLengthOf_lt (fun _ hnone => by cases hnone) h

def requestLength (stream : List UInt8) :
    Option ℕ := otaHttpParseContentLength (stream.take (otaHttpFindHeaderEnd stream))

/-- The body of a request: what follows its first end mark, up to its Content-Length. -/
def requestBody (stream : List UInt8) : List UInt8 :=
  (stream.drop (otaHttpFindHeaderEnd stream)).take ((requestLength stream).getD 0)

def handedBytes (handed : List (ℕ × List UInt8)) : List UInt8 := handed.flatMap Prod.snd

def Consecutive : ℕ → List (ℕ × List UInt8) → Prop
  | _, [] => True
  | first, (offset, bytes) :: rest => offset = first ∧ Consecutive (first + bytes.length) rest

theorem handedBytes_append (handed : List (ℕ × List UInt8)) (offset : ℕ) (bytes : List UInt8) :
    handedBytes (handed ++ [(offset, bytes)]) = handedBytes handed ++ bytes := by
  simp only [handedBytes, List.flatMap_append, List.flatMap_cons, List.flatMap_nil, List.append_nil]

theorem Consecutive.append {first offset : ℕ} {handed : List (ℕ × List UInt8)} {bytes : List UInt8}
    (h : Consecutive first handed) (ho : offset = first + (handedBytes handed).length) :
    Consecutive first (handed ++ [(offset, bytes)]) := by
  induction handed generalizing first with
  | nil => exact ⟨ho, trivial⟩
  | cons chunk rest ih =>
    obtain ⟨hfirst,hrest⟩ := h
    refine ⟨hfirst, ih hrest ?_⟩
    simp only [handedBytes, List.flatMap_cons, List.length_append] at ho ⊢
    omega

structure HandedInOrder (u : HttpUpload) : Prop where
  consecutive : Consecutive 0 u.handed
  inBody : handedBytes u.handed <+: requestBody u.stream

def HttpUpload.content (u : HttpUpload) : List UInt8 := u.stream.drop u.headerEnd

structure HttpUpload.Parsed (u : HttpUpload) : Prop where
  found : u.headerEnd ≠ 0
  headerEnd : otaHttpFindHeaderEnd u.header = u.headerEnd
  stream : u.header <+: u.stream
  length : otaHttpParseContentLength (u.header.take u.headerEnd) = some u.contentLength

/-- Of the body `written` bytes have been handed over, and `filled` more have come. -/
structure HttpUpload.Holds (u : HttpUpload) (written filled : ℕ) : Prop where
  parsed : u.Parsed
  consecutive : Consecutive 0 u.handed
  handed : handedBytes u.handed = u.content.take written
  content : u.content.length = written + filled
  bound : written + filled ≤ u.contentLength

theorem HttpUpload.Parsed.request (h : u.Parsed) :
    requestLength u.stream = some u.contentLength ∧
      requestBody u.stream = u.content.take u.contentLength := by
  obtain ⟨rest,hrest⟩ := h.stream
  have hfound : otaHttpFindHeaderEndFrom 0 u.header ≠ 0 := by
    rw [show otaHttpFindHeaderEndFrom 0 u.header = _ from h.headerEnd]
    exact h.found
  have hend : otaHttpFindHeaderEnd u.stream = u.headerEnd := by
    rw [← hrest]
    exact (otaHttpFindHeaderEndFrom_append rest hfound).trans h.headerEnd
  have hle : u.headerEnd ≤ u.header.length := by
    have := (otaHttpFindHeaderEndFrom_bounds hfound).2
    rw [show otaHttpFindHeaderEndFrom 0 u.header = _ from h.headerEnd] at this
    omega
  have hlength : requestLength u.stream = some u.contentLength := by
    unfold requestLength
    rw [hend, ← hrest, List.take_append_of_le_length hle]
    exact h.length
  refine ⟨hlength, ?_⟩
  unfold requestBody
  rw [hend, hlength]
  rfl

theorem HttpUpload.Holds.inOrder (h : u.Holds written filled) : HandedInOrder u := by
  refine ⟨h.consecutive, ?_⟩
  rw [h.parsed.request.2, h.handed]
  exact List.take_prefix_take_left (by have := h.bound; omega)

theorem HttpUpload.Holds.handed_length (h : u.Holds written filled) :
    (handedBytes u.handed).length = written := by
  rw [h.handed, List.length_take, h.content]
  omega

/-- Only the control point moves. -/
theorem HttpUpload.Holds.moveTo (h : u.Holds written filled) (pc : HttpPc) :
    (u.moveTo pc).Holds written filled :=
  ⟨⟨h.parsed.found, h.parsed.headerEnd, h.parsed.stream, h.parsed.length⟩, h.consecutive, h.handed,
    h.content, h.bound⟩

def HttpUpload.ProgressAt (u : HttpUpload) : HttpPc → Prop
  | .header => u.stream = u.header ∧ u.handed = []
  | .startState | .startReceived | .startPercent | .startError | .start | .starting =>
    u.Holds 0 u.body.length ∧ u.handed = [] ∧ u.stream = u.header
  | .receive written filled =>
    u.Holds written filled ∧ u.dataBuffer.take filled = u.content.drop written
  | .write pointer offset len =>
    u.Holds offset len ∧ (u.contents pointer).take len = u.content.drop offset
  | .writing expected | .waitSize expected | .waitReached expected | .waitState expected =>
    u.Holds expected 0
  | .complete => u.Holds u.contentLength 0
  | _ => HandedInOrder u

def HttpUpload.Progress (u : HttpUpload) : Prop := u.ProgressAt u.pc

theorem HandedInOrder.nil (h : u.handed = []) : HandedInOrder u := by
  refine ⟨?_, ?_⟩
  · rw [h]
    trivial
  · rw [h]
    exact List.nil_prefix

theorem HttpUpload.Progress.inOrder (h : u.Progress) : HandedInOrder u := by
  unfold HttpUpload.Progress HttpUpload.ProgressAt at h
  split at h
  case h_1 => exact .nil h.2
  case h_2 | h_3 | h_4 | h_5 | h_6 | h_7 => exact h.1.inOrder
  case h_8 => exact h.1.inOrder
  case h_9 => exact h.1.inOrder
  case h_15 => exact h
  all_goals exact h.inOrder

/-- A move within the points at which nothing but the order is known. -/
theorem HandedInOrder.moveTo (h : HandedInOrder u) {pc : HttpPc}
    (hpc : (u.moveTo pc).Progress = HandedInOrder (u.moveTo pc)) : (u.moveTo pc).Progress := by
  rw [hpc]
  exact ⟨h.consecutive, h.inBody⟩

theorem HttpUpload.headerReceived_progress {header : List UInt8} (hs : u.stream = header)
    (hh : u.handed = []) : (u.headerReceived header).Progress := by
  have hreply : ∀ {u : HttpUpload} {reply}, u.handed = [] → (u.moveTo (.idle reply)).Progress :=
    fun hnil => (HandedInOrder.nil hnil).moveTo rfl
  unfold HttpUpload.headerReceived
  dsimp only
  split
  case isTrue =>
    split
    · exact ⟨hs, hh⟩
    · exact hreply hh
  case isFalse hfound =>
    split
    · exact hreply hh
    case h_2 contentLength hlength =>
      split
      case isTrue => exact hreply hh
      case isFalse hbody =>
        have hlen : header.length - otaHttpFindHeaderEnd header ≤ contentLength := by
          rw [← List.length_drop]
          exact Nat.le_of_not_lt hbody
        have hparsed : (HttpUpload.mk .startState header (otaHttpFindHeaderEnd header) contentLength
          u.dataBuffer header [] u.before).Holds 0
          (header.drop (otaHttpFindHeaderEnd header)).length :=
          ⟨⟨hfound, rfl, List.prefix_refl header, hlength⟩, trivial, rfl, (Nat.zero_add _).symm, by
            rw [List.length_drop, Nat.zero_add]
            exact hlen⟩
        subst hs
        refine ⟨?_, hh, rfl⟩
        show HttpUpload.Holds
          (HttpUpload.mk .startState u.stream _ contentLength u.dataBuffer u.stream u.handed
          u.before) 0 _
        rw [hh]
        exact hparsed

theorem HttpUpload.Holds.next (h : u.Holds written 0) : (u.moveTo (u.next written)).Progress := by
  unfold HttpUpload.next
  split
  · refine ⟨h.moveTo _, ?_⟩
    show [] = u.content.drop written
    exact (List.drop_eq_nil_of_le (Nat.le_of_eq h.content)).symm
  · have hwritten : written = u.contentLength := by
      have := h.bound
      omega
    exact (hwritten ▸ h).moveTo .complete

theorem HttpUpload.receiveImage_progress (h : u.Holds 0 u.body.length) (hs : u.stream = u.header) :
    (u.moveTo u.receiveImage).Progress := by
  unfold HttpUpload.receiveImage
  split
  · exact h.inOrder.moveTo rfl
  · split
    case isTrue =>
      refine ⟨h.moveTo _, ?_⟩
      show (u.contents httpHeaderBuffer).take u.body.length = u.stream.drop u.headerEnd
      rw [HttpUpload.contents, if_pos rfl, List.take_length, hs]
      rfl
    case isFalse hempty =>
      rw [not_not.mp hempty] at h
      exact h.next

/-- The data buffer takes the next bytes of the body. -/
theorem HttpUpload.Holds.fill {data : List UInt8} (h : u.Holds written filled)
    (hbuffer : u.dataBuffer.take filled = u.content.drop written)
    (hbound : written + filled + data.length ≤ u.contentLength) :
    (u.fill filled data).Holds written (filled + data.length) ∧
      (u.fill filled data).dataBuffer.take (filled + data.length) =
        (u.fill filled data).content.drop written := by
  have hfound : otaHttpFindHeaderEndFrom 0 u.header ≠ 0 := by
    rw [show otaHttpFindHeaderEndFrom 0 u.header = _ from h.parsed.headerEnd]
    exact h.parsed.found
  have hend : u.headerEnd ≤ u.stream.length := by
    have hle := (otaHttpFindHeaderEndFrom_bounds hfound).2
    rw [show otaHttpFindHeaderEndFrom 0 u.header = _ from h.parsed.headerEnd] at hle
    have := h.parsed.stream.length_le
    omega
  have hcontent : (u.fill filled data).content = u.content ++ data :=
    List.drop_append_of_le_length hend
  have hwritten : written ≤ u.content.length := by
    rw [h.content]
    exact Nat.le_add_right _ _
  refine ⟨⟨⟨h.parsed.found, h.parsed.headerEnd, h.parsed.stream.trans (List.prefix_append _ _),
    h.parsed.length⟩, h.consecutive, ?_, ?_, ?_⟩, ?_⟩
  · rw [hcontent, List.take_append_of_le_length hwritten]
    exact h.handed
  · rw [hcontent, List.length_append, h.content, Nat.add_assoc]
  · show written + (filled + data.length) ≤ u.contentLength
    omega
  · have hlen : (u.dataBuffer.take filled ++ data).length = filled + data.length := by
      rw [List.length_append, hbuffer, List.length_drop, h.content]
      omega
    show (u.dataBuffer.take filled ++ data ++ u.dataBuffer.drop _).take (filled + data.length) = _
    rw [List.take_append_of_le_length (Nat.le_of_eq hlen.symm),
      List.take_of_length_le (Nat.le_of_eq hlen), hbuffer, hcontent,
      List.drop_append_of_le_length hwritten]

/-- The chunk is handed over. -/
theorem HttpUpload.Holds.write {bytes : List UInt8} (h : u.Holds written filled)
    (hbytes : bytes = u.content.drop written) :
    ({ u with handed := u.handed ++ [(written, bytes)] } : HttpUpload).Holds (written + filled)
    0 := by
  refine ⟨⟨h.parsed.found, h.parsed.headerEnd, h.parsed.stream, h.parsed.length⟩, ?_, ?_, ?_, ?_⟩
  · exact h.consecutive.append (by rw [h.handed_length, Nat.zero_add])
  · show handedBytes (u.handed ++ [(written, bytes)]) = u.content.take (written + filled)
    rw [handedBytes_append, h.handed, hbytes, List.take_append_drop,
      List.take_of_length_le (Nat.le_of_eq h.content)]
  · exact h.content
  · exact h.bound

/-- The step lemma of the upload. -/
theorem HttpMove.progress (h : HttpMove sdk s t) (hs : s.http.Progress) : t.http.Progress := by
  have hof : ∀ {pc}, s.http.pc = pc → s.http.ProgressAt pc := fun hpc => hpc ▸ hs
  cases h with
  | refuse reply data hpc =>
    exact HandedInOrder.moveTo (u := s.http.begin data s.core.shared.session) (.nil rfl) rfl
  | request reply data hpc => exact HttpUpload.headerReceived_progress rfl rfl
  | header data hpc =>
    obtain ⟨hstream,hnil⟩ := hof hpc
    refine HttpUpload.headerReceived_progress ?_ hnil
    show s.http.stream ++ data = s.http.header ++ data
    rw [show s.http.stream = s.http.header from hstream]
  | reset pc f hr =>
    obtain ⟨old,hpc⟩ : ∃ old, s.http.pc = old := ⟨_, rfl⟩
    rw [hpc] at hr
    have hold := hof hpc
    cases hr <;> exact ⟨hold.1.moveTo _, hold.2⟩
  | look pc hl =>
    obtain ⟨old,hpc⟩ : ∃ old, s.http.pc = old := ⟨_, rfl⟩
    rw [hpc] at hl
    have hold := hof hpc
    cases hl with
    | received expected _ => exact hold.moveTo _
    | waiting expected _ => exact hold.moveTo _
    | waitAgain expected _ => exact hold.moveTo _
    | reached expected _ => exact hold.next
    | completeAgain => exact hold.moveTo _
    | _ => exact hs.inOrder.moveTo rfl
  | start s' hpc hs' =>
    obtain ⟨ret,-,rfl⟩ := invoke_some hs'
    have hold := hof hpc
    exact ⟨hold.1.moveTo _, hold.2⟩
  | started ret hpc hret =>
    have hold := hof hpc
    show (s.http.moveTo (if ret = .ok then s.http.receiveImage
      else .idle (some (.startFailed ret)))).Progress
    split
    · exact HttpUpload.receiveImage_progress hold.1 hold.2.2
    · exact hs.inOrder.moveTo rfl
  | fill written filled data hpc hdata hlen =>
    obtain ⟨hold,hbuffer⟩ := hof hpc
    have hpos := List.length_pos_iff.mpr hdata
    have hchunk : s.http.chunkSize written ≤ s.http.contentLength - written := Nat.min_le_right _ _
    have hbound := hold.bound
    have hroom : written + filled + data.length ≤ s.http.contentLength := by omega
    obtain ⟨hnew,hbuffer'⟩ := hold.fill hbuffer hroom
    show ((s.http.fill filled data).moveTo _).Progress
    split
    case isTrue hfull =>
      rw [← hfull]
      exact ⟨hnew.moveTo _, hbuffer'⟩
    case isFalse => exact ⟨hnew.moveTo _, hbuffer'⟩
  | write pointer offset len s' hpc hs' =>
    obtain ⟨ret,-,rfl⟩ := invoke_some hs'
    obtain ⟨hold,hbuffer⟩ := hof hpc
    have hbound := hold.bound
    have hlt := otaHttpParseContentLength_lt hold.parsed.length
    have hnew := hold.write hbuffer
    rw [← u32Add_eq (a := offset) (b := len) (by omega)] at hnew
    exact hnew.moveTo (.writing (u32Add offset len))
  | written expected ret hpc hret =>
    have hold := hof hpc
    show (s.http.moveTo (if ret = .ok then HttpPc.waitSize expected else .failed)).Progress
    split
    · exact hold.moveTo _
    · exact hs.inOrder.moveTo rfl
  | abort error s' hpc hs' =>
    obtain ⟨ret,-,rfl⟩ := invoke_some hs'
    exact hs.inOrder.moveTo rfl
  | aborting error ret hpc hret =>
    show (s.http.moveTo (if ret = .ok then HttpPc.abortWait error
      else .idle (some (.failed error)))).Progress
    split <;> exact hs.inOrder.moveTo rfl

theorem reach_progress {ok : ChannelState G → ChannelLabel → Prop} {flash : Flash}
    (h : Reach (channelStep sdk) ok (channelBoot G flash) s) : s.http.Progress := by
  refine @Reach.invariant _ _ _ _ _ (fun s => s.http.Progress) (HandedInOrder.nil rfl) ?_ s h
  intro s l t hs _ hstep
  cases l with
  | core i label =>
    rw [(coreStep_move hstep).channels.1]
    exact hs
  | callback k =>
    rw [(callbackStep_move hstep).channels.1]
    exact hs
  | http event => exact (httpStep_move hstep).progress hs
  | matter event =>
    rw [(matterStep_move hstep).http]
    exact hs

end Sonoff.Ota
