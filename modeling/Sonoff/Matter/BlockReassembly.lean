import Mathlib.Data.List.Infix
import Sonoff.Base.Bytes
import Sonoff.Matter.ImageProcessor

/-! # Reassembly of the image

Whatever the blocks an image arrives in, the adapter is started with the size of the payload
and sees the payload alone, byte for byte.
-/
namespace Sonoff.Matter
open Bytes

variable {P : Type*}

/-- The parser takes `bytes` from the blocks, over any number of calls, and leaves the rest;
`Accumulated` says what it has taken so far. -/
structure Consumes (parser : OTAImageHeaderParser P) (bytes : List UInt8) (decoded : OTAImageHeader)
    (Accumulated : P → List UInt8 → Prop) : Prop where
  nonempty : bytes ≠ []
  init : ∀ p, Accumulated (parser.init p) []
  isInitialized : ∀ p taken, Accumulated p taken → parser.isInitialized p = true
  clear : ∀ p, parser.isInitialized (parser.clear p) = false
  part : ∀ p taken block header, Accumulated p taken → taken ++ block <+: bytes →
    taken ++ block ≠ bytes → ∃ q header', parser.accumulateAndDecode p block header =
    (.bufferTooSmall, q, [], header') ∧
      Accumulated q (taken ++ block)
  whole : ∀ p taken block rest header, Accumulated p taken → taken ++ block = bytes →
    ∃ q, parser.accumulateAndDecode p (block ++ rest) header = (.noError, q, rest, decoded)

def writesAt : ℕ → List (List UInt8) → List MatterCall
  | _, [] => []
  | offset, chunk :: chunks => .write offset chunk :: writesAt (offset + chunk.length) chunks

/-- One start, and the chunks behind it from offset 0 on; nothing where there is no chunk yet. -/
def sessionCalls (header : OTAImageHeader) (chunks : List (List UInt8)) : List MatterCall :=
  if chunks = [] then [] else .start header.mPayloadSize header.mSoftwareVersion ::
    writesAt 0 chunks

/-- The calls of a download that has ended early: at a block that was not taken, at a refused
start, or with an abort behind a refused chunk. -/
def BrokenOff (header : OTAImageHeader) (chunks : List (List UInt8)) (calls : List MatterCall) :
    Prop :=
  calls = sessionCalls header chunks ∨
    calls = [.start header.mPayloadSize header.mSoftwareVersion] ∨
    calls = sessionCalls header chunks ++ [.abort]

/-- A start or a write behind `asked` was answered with an error. -/
def CallRefused (env : Environment) (asked : List MatterCall) (t : OTAImageProcessor P) : Prop :=
  ∃ made call, call ≠ .abort ∧ asked ++ made ++ [call] <+: t.calls ∧
    env.answer (asked ++ made ++ [call]) ≠ 0

def SizeRefused (header : OTAImageHeader) (bytes delivered : List UInt8) : Prop :=
  (header.mPayloadSize = 0 ∨ header.mPayloadSize > uint32Max) ∧ bytes.length < delivered.length

/-- What was refused while the processor took a block: the block itself, the memory it asked for,
the size, or a call that it made. -/
def BlockRefused (env : Environment) (bytes : List UInt8) (header : OTAImageHeader)
    (delivered : List UInt8) (s : OTAImageProcessor P) (block : List UInt8)
    (t : OTAImageProcessor P) : Prop :=
  block = [] ∨ (s.mBlock.length < block.length ∧ env.memoryAlloc (s.requests ++ [block.length]) =
    false) ∨ SizeRefused header bytes (delivered ++ block) ∨ CallRefused env s.calls t

/-- Up to a block the download ran, and there something was refused. -/
def Refused (parser : OTAImageHeaderParser P) (env : Environment) (bytes : List UInt8)
    (header : OTAImageHeader) (s : OTAImageProcessor P) (blocks : List (List UInt8)) : Prop :=
  ∃ front block rest, blocks = front ++ block :: rest ∧ (s.deliver parser env front).ended = none ∧
    BlockRefused env bytes header front.flatten (s.deliver parser env front) block
      ((s.deliver parser env front).processBlock parser env block)

def Complete (header : OTAImageHeader) (part : List UInt8) (before : List MatterCall)
    (t : OTAImageProcessor P) : Prop :=
  ∃ chunks, t.calls = before ++ sessionCalls header chunks ∧ (∀ chunk ∈ chunks, chunk ≠ []) ∧
    chunks.flatten = part

def Broken (header : OTAImageHeader) (part : List UInt8) (before : List MatterCall)
    (t : OTAImageProcessor P) : Prop :=
  ∃ chunks calls, t.calls = before ++ calls ∧ BrokenOff header chunks calls ∧
    (∀ chunk ∈ chunks, chunk ≠ []) ∧ chunks.flatten <+: part

theorem writesAt_append (offset : ℕ) (chunks : List (List UInt8)) (chunk : List UInt8) :
    writesAt offset (chunks ++ [chunk]) = writesAt offset chunks ++
      [.write (offset + chunks.flatten.length) chunk] := by
  induction chunks generalizing offset with
  | nil => simp only [writesAt, List.nil_append, List.flatten_nil, List.length_nil, Nat.add_zero]
  | cons c chunks ih =>
    simp only [List.cons_append, writesAt, ih, List.flatten_cons, List.length_append, Nat.add_assoc]

theorem sessionCalls_append (header : OTAImageHeader) {chunks : List (List UInt8)}
    (hne : chunks ≠ []) (chunk : List UInt8) :
    sessionCalls header (chunks ++ [chunk]) = sessionCalls header chunks ++
      [.write chunks.flatten.length chunk] := by
  unfold sessionCalls
  rw [if_neg (List.append_ne_nil_of_left_ne_nil hne _), if_neg hne, writesAt_append, Nat.zero_add,
    List.cons_append]

/-- The processor of a running download, with `delivered` of the image behind it: it is still in
the header, or it has handed on the payload so far. -/
structure Receiving (parser : OTAImageHeaderParser P) (bytes : List UInt8)
    (decoded : OTAImageHeader) (Accumulated : P → List UInt8 → Prop) (before : List MatterCall)
    (delivered : List UInt8) (s : OTAImageProcessor P) :
    Prop where
  running : s.ended = none
  stage : (Accumulated s.mHeaderParser delivered ∧ delivered <+: bytes ∧ delivered ≠ bytes ∧
    s.readHeader = false ∧ s.flashDataOffset = 0 ∧ s.calls = before) ∨
    ∃ chunks, parser.isInitialized s.mHeaderParser = false ∧ s.header = decoded ∧
      delivered = bytes ++ chunks.flatten ∧
      (∀ chunk ∈ chunks, chunk ≠ []) ∧ s.readHeader = !chunks.isEmpty ∧
        s.flashDataOffset = chunks.flatten.length ∧
      s.calls = before ++ sessionCalls decoded chunks ∧
        (chunks ≠ [] → decoded.mPayloadSize ≤ uint32Max)

variable {parser : OTAImageHeaderParser P} {env : Environment} {bytes payload : List UInt8}
  {decoded : OTAImageHeader}
variable {Accumulated : P → List UInt8 → Prop} {before : List MatterCall}
  {delivered block : List UInt8}
variable {asked : List MatterCall} {blocks : List (List UInt8)} {s : OTAImageProcessor P}

/-- Further in a block: the download goes on, or the size or a call behind `asked` was refused. -/
def Advanced (parser : OTAImageHeaderParser P) (env : Environment) (bytes : List UInt8)
    (decoded : OTAImageHeader) (Accumulated : P → List UInt8 → Prop)
    (before asked : List MatterCall) (delivered : List UInt8)
    (t : OTAImageProcessor P) : Prop :=
  Receiving parser bytes decoded Accumulated before delivered t ∨
    t.ended ≠ none ∧ (SizeRefused decoded bytes delivered ∨ CallRefused env asked t) ∧
      Broken decoded (delivered.drop bytes.length) before t

theorem drop_header (bytes part : List UInt8) : (bytes ++ part).drop bytes.length = part :=
  List.drop_left

/-- The write of a block behind the chunks before it, at the offset they end at. -/
theorem writeBlock_advanced {chunks : List (List UInt8)} {opened : List MatterCall}
    (hrunning : s.ended = none) (hready : parser.isInitialized s.mHeaderParser = false)
    (hheader : s.header = decoded) (hread : s.readHeader = true)
    (hoffset : s.flashDataOffset = chunks.flatten.length) (hcalls : s.calls = before ++ opened)
    (hasked : asked <+: s.calls)
    (hopened : opened ++ [.write chunks.flatten.length block] =
    sessionCalls decoded (chunks ++ [block]))
    (hchunks : ∀ chunk ∈ chunks, chunk ≠ []) (hblock : block ≠ [])
    (hmax : decoded.mPayloadSize ≤ uint32Max)
    (hfits : chunks.flatten.length + block.length ≤ decoded.mPayloadSize) :
    Advanced parser env bytes decoded Accumulated before asked (bytes ++ (chunks.flatten ++ block))
      (s.writeBlock env block) := by
  have hflatten : (chunks ++ [block]).flatten = chunks.flatten ++ block := by
    rw [List.flatten_append, List.flatten_singleton]
  have hnonempty : ∀ chunk ∈ chunks ++ [block], chunk ≠ [] := by
    intro chunk hc
    rcases List.mem_append.mp hc with hc | hc
    · exact hchunks chunk hc
    · rw [List.mem_singleton.mp hc]
      exact hblock
  have hwritten : (s.call (.write s.flashDataOffset block)).calls = before ++
      sessionCalls decoded (chunks ++ [block]) := by
    rw [← hopened, ← List.append_assoc, ← hcalls, hoffset]
    rfl
  unfold OTAImageProcessor.writeBlock
  rw [if_neg (by omega)]
  dsimp only
  split
  case isTrue hanswer =>
    refine Or.inr ⟨nofun, Or.inr ?_, chunks ++ [block], _, ?_, Or.inr (Or.inr rfl), hnonempty, ?_⟩
    · obtain ⟨made,hmade⟩ := hasked
      refine ⟨made, .write s.flashDataOffset block, nofun, ?_, ?_⟩
      · rw [hmade]
        exact List.prefix_append _ _
      · rw [hmade]
        exact hanswer
    · show (s.call _).calls ++ [.abort] = _
      rw [hwritten, List.append_assoc]
    · rw [drop_header, hflatten]
  case isFalse =>
    refine Or.inl ⟨hrunning,
      Or.inr ⟨chunks ++ [block], hready, hheader, ?_, hnonempty, ?_, ?_, hwritten, fun _ => hmax⟩⟩
    · rw [hflatten]
    · rw [List.isEmpty_eq_false_iff.mpr
        (List.append_ne_nil_of_right_ne_nil _ (List.cons_ne_nil _ _))]
      exact hread
    · rw [hflatten, List.length_append]
      show (s.flashDataOffset + block.length) % 2 ^ 32 = _
      rw [hoffset]
      exact Nat.mod_eq_of_lt (by unfold uint32Max at hmax; omega)

/-- Bytes behind the header, with the start in front of the first of them. -/
theorem processPayload_advanced (hsize : decoded.mPayloadSize = payload.length)
    (chunks : List (List UInt8)) (hrunning : s.ended = none)
    (hready : parser.isInitialized s.mHeaderParser = false) (hheader : s.header = decoded)
    (hread : s.readHeader = !chunks.isEmpty) (hoffset : s.flashDataOffset = chunks.flatten.length)
    (hcalls : s.calls = before ++ sessionCalls decoded chunks)
    (hchunks : ∀ chunk ∈ chunks, chunk ≠ [])
    (hmax : chunks ≠ [] → decoded.mPayloadSize ≤ uint32Max) (hblock : block ≠ [])
    (hasked : asked = s.calls) (hpayload : chunks.flatten ++ block <+: payload) :
    Advanced parser env bytes decoded Accumulated before asked (bytes ++ (chunks.flatten ++ block))
      (s.processPayload env block) := by
  have hfits : chunks.flatten.length + block.length ≤ decoded.mPayloadSize := by
    rw [hsize, ← List.length_append]
    exact hpayload.length_le
  unfold OTAImageProcessor.processPayload
  by_cases hfirst : chunks = []
  · subst hfirst
    rw [hread, if_neg (by decide), hheader]
    have hnone : s.calls = before := by rw [hcalls]; exact List.append_nil before
    split
    case isTrue hbad =>
      simp only [Bool.or_eq_true, decide_eq_true_eq] at hbad
      refine Or.inr ⟨nofun, Or.inl ⟨hbad, ?_⟩, [], [], ?_, Or.inl rfl, nofun, List.nil_prefix⟩
      · have hpos := List.length_pos_iff.mpr hblock
        simp only [List.length_append]
        omega
      · rw [List.append_nil]
        exact hnone
    case isFalse hgood =>
      simp only [Bool.or_eq_true, decide_eq_true_eq, not_or, Nat.not_lt] at hgood
      dsimp only
      split
      case isTrue hanswer =>
        refine Or.inr ⟨nofun, Or.inr ?_, [], _, ?_, Or.inr (Or.inl rfl), nofun, List.nil_prefix⟩
        · refine ⟨[], .start decoded.mPayloadSize decoded.mSoftwareVersion, nofun, ?_, ?_⟩
          · rw [List.append_nil, hasked]
            exact List.prefix_rfl
          · rw [List.append_nil, hasked]
            exact hanswer
        · rw [← hnone]
          rfl
      case isFalse =>
        exact writeBlock_advanced hrunning hready hheader rfl hoffset (congrArg (· ++ _) hnone)
          (hasked ▸ List.prefix_append _ _) rfl hchunks hblock hgood.2 hfits
  · rw [hread, List.isEmpty_eq_false_iff.mpr hfirst, if_pos (by decide)]
    refine writeBlock_advanced hrunning hready hheader ?_ hoffset hcalls (hasked ▸ List.prefix_rfl)
      (sessionCalls_append _ hfirst _).symm hchunks hblock (hmax hfirst) hfits
    rw [hread, List.isEmpty_eq_false_iff.mpr hfirst]
    rfl

/-- Where the header lies in a block: the block ends in it, or its rest is payload. -/
theorem header_split (hd : delivered <+: bytes) (hb : delivered ++ block <+: bytes ++ payload) :
    (delivered ++ block <+: bytes ∧ delivered ++ block ≠ bytes) ∨
      ∃ front rest, block = front ++ rest ∧ delivered ++ front = bytes ∧ rest <+: payload := by
  by_cases hwhole : bytes <+: delivered ++ block
  · obtain ⟨missing,rfl⟩ := hd
    obtain ⟨rest,hrest⟩ := (List.prefix_append_right_inj delivered).mp hwhole
    refine Or.inr ⟨missing, rest, hrest.symm, rfl, ?_⟩
    rw [← hrest, ← List.append_assoc] at hb
    exact (List.prefix_append_right_inj _).mp hb
  · refine Or.inl ⟨(List.prefix_or_prefix_of_prefix hb (List.prefix_append _ _)).resolve_right
      hwhole, ?_⟩
    rintro rfl
    exact hwhole List.prefix_rfl

theorem handleProcessBlock_advanced (hp : Consumes parser bytes decoded Accumulated)
    (hsize : decoded.mPayloadSize = payload.length)
    (h : Receiving parser bytes decoded Accumulated before delivered s) (hblock : s.mBlock ≠ [])
    (hasked : asked = s.calls) (hb : delivered ++ s.mBlock <+: bytes ++ payload) :
    Advanced parser env bytes decoded Accumulated before asked (delivered ++ s.mBlock)
      (s.handleProcessBlock parser env) := by
  unfold OTAImageProcessor.handleProcessBlock OTAImageProcessor.processHeader
  rcases h.stage with ⟨hacc,hd,-,hread,hoffset,hcalls⟩ | ⟨chunks,hready,hheader,rfl,hchunks,hread,
    hoffset,hcalls,hmax⟩
  · rw [if_pos (hp.isInitialized _ _ hacc)]
    rcases header_split hd hb with ⟨hpart,hne⟩ | ⟨front,rest,hsplit,hwhole,hrest⟩
    · obtain ⟨q,header,haccumulate,hq⟩ := hp.part _ _ _ {} hacc hpart hne
      rw [haccumulate]
      dsimp only
      rw [if_neg (by decide), hp.isInitialized _ _ hq]
      exact Or.inl ⟨h.running, Or.inl ⟨hq, hpart, hne, hread, hoffset, hcalls⟩⟩
    · obtain ⟨q,haccumulate⟩ := hp.whole _ _ _ rest {} hacc hwhole
      rw [hsplit, haccumulate]
      dsimp only
      rw [if_neg (by decide), hp.clear, Bool.false_or, ← List.append_assoc, hwhole]
      split
      case isTrue hempty =>
        rw [List.isEmpty_iff.mp hempty]
        exact Or.inl ⟨h.running, Or.inr ⟨[], hp.clear q, rfl, rfl, nofun, hread, hoffset,
          hcalls.trans (List.append_nil before).symm, fun hne => absurd rfl hne⟩⟩
      case isFalse hnonempty =>
        exact processPayload_advanced hsize [] h.running (hp.clear q) rfl hread hoffset
          (hcalls.trans (List.append_nil before).symm) nofun (fun hne => absurd rfl hne)
          (fun he => hnonempty (List.isEmpty_iff.mpr he)) hasked hrest
  · rw [if_neg (by rw [hready]; decide)]
    dsimp only
    rw [if_neg (by decide), hready, Bool.false_or, List.isEmpty_eq_false_iff.mpr hblock,
      if_neg (by decide)]
    rw [List.append_assoc] at hb ⊢
    exact processPayload_advanced hsize chunks h.running hready hheader hread hoffset hcalls hchunks
      hmax hblock hasked ((List.prefix_append_right_inj bytes).mp hb)

/-- A running download has handed on all of the payload so far. -/
theorem Receiving.complete (h : Receiving parser bytes decoded Accumulated before delivered s) :
    Complete decoded (delivered.drop bytes.length) before s := by
  rcases h.stage with ⟨-,hd,-,-,-,hcalls⟩ | ⟨chunks,-,-,rfl,hchunks,-,-,hcalls,-⟩
  · refine ⟨[], hcalls.trans (List.append_nil before).symm, nofun, ?_⟩
    rw [List.drop_eq_nil_of_le hd.length_le]
    rfl
  · exact ⟨chunks, hcalls, hchunks, (drop_header bytes _).symm⟩

theorem Receiving.broken {t : OTAImageProcessor P}
    (h : Receiving parser bytes decoded Accumulated before delivered s)
    (ht : t.calls = s.calls) : Broken decoded (delivered.drop bytes.length) before t := by
  obtain ⟨chunks,hcalls,hchunks,hflatten⟩ := h.complete
  exact ⟨chunks, _, ht.trans hcalls, Or.inl rfl, hchunks, hflatten ▸ List.prefix_rfl⟩

theorem Broken.mono {part part' : List UInt8} (h : Broken decoded part before s)
    (hpart : part <+: part') :
    Broken decoded part' before s := by
  obtain ⟨chunks,calls,hcalls,hbroken,hchunks,hflatten⟩ := h
  exact ⟨chunks, calls, hcalls, hbroken, hchunks, hflatten.trans hpart⟩

/-- One block further: the download goes on, or something was refused. -/
theorem processBlock_advanced (hp : Consumes parser bytes decoded Accumulated)
    (hsize : decoded.mPayloadSize = payload.length)
    (h : Receiving parser bytes decoded Accumulated before delivered s)
    (hb : delivered ++ block <+: bytes ++ payload) :
    let t := s.processBlock parser env block
    Receiving parser bytes decoded Accumulated before (delivered ++ block) t ∨
      t.ended ≠ none ∧ BlockRefused env bytes decoded delivered s block t ∧
        Broken decoded ((delivered ++ block).drop bytes.length) before t := by
  intro t
  have hgrown : delivered.drop bytes.length <+: (delivered ++ block).drop bytes.length :=
    List.IsPrefix.drop (List.prefix_append _ _) _
  by_cases hempty : block = []
  · have ht : t = s.endDownload .invalidArgument := if_pos hempty
    rw [ht]
    exact Or.inr ⟨nofun, Or.inl hempty, (h.broken rfl).mono hgrown⟩
  by_cases hmemory : s.mBlock.length < block.length ∧
    env.memoryAlloc (s.requests ++ [block.length]) = false
  · have ht : t = { s with mBlock := [], requests := s.requests ++ [block.length] }.endDownload
        .noMemory := by
      simp only [t, OTAImageProcessor.processBlock, OTAImageProcessor.setBlock, if_neg hempty,
        if_pos hmemory.1, hmemory.2]
      rfl
    rw [ht]
    exact Or.inr ⟨nofun, Or.inr (Or.inl hmemory), (h.broken rfl).mono hgrown⟩
  · obtain ⟨requests,ht⟩ : ∃ requests, t = { s with mBlock := block, requests := requests }.handleProcessBlock parser env := by
      by_cases hgrow : s.mBlock.length < block.length
      · have hgranted : env.memoryAlloc (s.requests ++ [block.length]) = true := by
          simpa [hgrow] using hmemory
        refine ⟨s.requests ++ [block.length], ?_⟩
        simp only [t, OTAImageProcessor.processBlock, OTAImageProcessor.setBlock, if_neg hempty,
          if_pos hgrow, hgranted]
        rfl
      · refine ⟨s.requests, ?_⟩
        simp only [t, OTAImageProcessor.processBlock, OTAImageProcessor.setBlock, if_neg hempty,
          if_neg hgrow]
        rfl
    rw [ht]
    have hset : Receiving parser bytes decoded Accumulated before delivered { s with mBlock := block, requests := requests } :=
      ⟨h.running, h.stage⟩
    refine (handleProcessBlock_advanced hp hsize hset hempty rfl hb).imp_right ?_
    rintro ⟨hended,hrefused,hbroken⟩
    exact ⟨hended, Or.inr (Or.inr hrefused), hbroken⟩

theorem deliver_ended (h : s.ended ≠ none) : s.deliver parser env blocks = s := by
  cases blocks with
  | nil => rfl
  | cons block blocks =>
    unfold OTAImageProcessor.deliver
    rw [if_neg h]

theorem deliver_cons (h : s.ended = none) :
    s.deliver parser env (block :: blocks) = (s.processBlock parser env block).deliver parser env
      blocks := if_pos h

theorem deliver_append (s : OTAImageProcessor P) (front rest : List (List UInt8)) :
    s.deliver parser env (front ++ rest) = (s.deliver parser env front).deliver parser env
      rest := by
  induction front generalizing s with
  | nil => rfl
  | cons block front ih =>
    by_cases hrunning : s.ended = none
    · rw [List.cons_append, deliver_cons hrunning, deliver_cons hrunning, ih]
    · rw [deliver_ended hrunning, deliver_ended hrunning, deliver_ended hrunning]

/-- The rest of a run of blocks, those behind an early end included. -/
theorem deliver_advanced (hp : Consumes parser bytes decoded Accumulated)
    (hsize : decoded.mPayloadSize = payload.length)
    (s : OTAImageProcessor P) (front rest : List (List UInt8))
    (h : Receiving parser bytes decoded Accumulated before front.flatten
      (s.deliver parser env front))
    (hb : (front ++ rest).flatten <+: bytes ++ payload) :
    let t := s.deliver parser env (front ++ rest)
    Receiving parser bytes decoded Accumulated before (front ++ rest).flatten t ∨
      t.ended ≠ none ∧ Refused parser env bytes decoded s (front ++ rest) ∧
        Broken decoded ((front ++ rest).flatten.drop bytes.length) before t := by
  induction rest generalizing front with
  | nil =>
    rw [List.append_nil]
    exact Or.inl h
  | cons block rest ih =>
    have hsplit : front ++ block :: rest = (front ++ [block]) ++ rest := by simp
    have hflatten : (front ++ [block]).flatten = front.flatten ++ block := by
      rw [List.flatten_append, List.flatten_singleton]
    have hone : s.deliver parser env (front ++ [block]) = (s.deliver parser env front).processBlock
        parser env block := by
      rw [deliver_append, deliver_cons h.running]
      rfl
    have hprefix : front.flatten ++ block <+: bytes ++ payload := by
      rw [hsplit, List.flatten_append, hflatten] at hb
      exact (List.prefix_append _ _).trans hb
    rcases processBlock_advanced hp hsize h hprefix with hnext | ⟨hended,hrefused,hbroken⟩
    · rw [hsplit] at hb ⊢
      exact ih (front ++ [block]) (by rw [hone, hflatten]; exact hnext) hb
    · have hrest : s.deliver parser env (front ++ block :: rest) =
          (s.deliver parser env front).processBlock parser env block := by
        rw [hsplit, deliver_append, hone, deliver_ended hended]
      rw [hrest]
      refine Or.inr ⟨hended, ⟨front, block, rest, rfl, h.running, hrefused⟩, hbroken.mono ?_⟩
      rw [hsplit, List.flatten_append, hflatten]
      exact List.IsPrefix.drop (List.prefix_append _ _) _

/-- What the adapter has seen of an image of which `blocks` have arrived at the processor `s`. -/
structure Reassembled (parser : OTAImageHeaderParser P) (env : Environment) (bytes : List UInt8)
    (header : OTAImageHeader) (s : OTAImageProcessor P) (blocks : List (List UInt8))
    (t : OTAImageProcessor P) : Prop where
  complete : t.ended = none → Complete header (blocks.flatten.drop bytes.length) s.calls t
  broken : t.ended ≠ none → Refused parser env bytes header s blocks
    ∧ Broken header (blocks.flatten.drop bytes.length) s.calls t

theorem matter_blocks_reassembled (parser : OTAImageHeaderParser P) (env : Environment)
    {bytes payload : List UInt8} {decoded : OTAImageHeader} {Accumulated : P → List UInt8 → Prop}
    (hp : Consumes parser bytes decoded Accumulated)
    (hsize : decoded.mPayloadSize = payload.length) (s : OTAImageProcessor P)
    (blocks : List (List UInt8)) (hb : blocks.flatten <+: bytes ++ payload) :
    Reassembled parser env bytes decoded (s.handlePrepareDownload parser) blocks
      ((s.handlePrepareDownload parser).deliver parser env blocks) := by
  have hstart : Receiving parser bytes decoded Accumulated s.calls []
      (s.handlePrepareDownload parser) :=
    ⟨rfl, Or.inl ⟨hp.init _, List.nil_prefix, hp.nonempty.symm, rfl, rfl, rfl⟩⟩
  rcases deliver_advanced hp hsize (s.handlePrepareDownload parser) [] blocks hstart
    hb with h | ⟨hended,hrefused,hbroken⟩
  · exact ⟨fun _ => h.complete, fun hne => absurd h.running hne⟩
  · exact ⟨fun hnone => absurd hnone hended, fun _ => ⟨hrefused, hbroken⟩⟩

def knownHeaderParser (bytes : List UInt8) (decoded : OTAImageHeader) :
    OTAImageHeaderParser (Option (List UInt8)) where
  init _ := some []
  isInitialized := Option.isSome
  clear _ := none
  accumulateAndDecode
    | some taken, block, header =>
      let missing := bytes.length - taken.length
      if block.length < missing then (.bufferTooSmall, some (taken ++ block), [], header)
      else if taken ++ block.take missing = bytes then
        (.noError, some bytes, block.drop missing, decoded)
      else (.invalidArgument, none, block.drop missing, header)
    | none, block, header => (.incorrectState, none, block, header)

theorem knownHeaderParser_consumes {bytes : List UInt8} (decoded : OTAImageHeader)
    (hne : bytes ≠ []) :
    Consumes (knownHeaderParser bytes decoded) bytes decoded (fun p taken => p = some taken) where
  nonempty := hne
  init _ := rfl
  isInitialized := by
    rintro _ taken rfl
    rfl
  clear _ := rfl
  part := by
    rintro _ taken block header rfl hpart hproper
    have hlt : block.length < bytes.length - taken.length := by
      have hle := hpart.length_le
      have hlength : (taken ++ block).length ≠ bytes.length := fun he =>
        hproper (hpart.eq_of_length he)
      rw [List.length_append] at hle hlength
      omega
    exact ⟨_, header, if_pos hlt, rfl⟩
  whole := by
    rintro _ taken block rest header rfl rfl
    have hmissing : (taken ++ block).length - taken.length = block.length := by
      rw [List.length_append, Nat.add_sub_cancel_left]
    refine ⟨some (taken ++ block), ?_⟩
    show (if _ then _ else if _ then _ else _) = _
    rw [hmissing, if_neg (by rw [List.length_append]; omega), List.take_left, List.drop_left,
      if_pos rfl]

def chipHeader (payloadSize : ℕ) : List UInt8 :=
  let tlv := [0x15, 0x25, 0, 0xf1, 0xff, 0x25, 1, 0, 0x80, 0x24, 2, 2, 0x2c, 3, 3, 0x32, 0x2e, 0x30,
    0x27, 4] ++ packLe32 payloadSize ++ packLe32 (payloadSize / 2 ^ 32) ++
    [0x24, 8, 1, 0x30, 9, 32] ++ List.replicate 32 0 ++ [0x18]
  let total := 16 + tlv.length + payloadSize
  [0x1e, 0xf1, 0xee, 0x1b] ++ packLe32 total ++ packLe32 (total / 2 ^ 32) ++ packLe32 tlv.length ++
    tlv

def chipImageHeader (payloadSize : ℕ) : OTAImageHeader where
  mSoftwareVersion := 2
  mPayloadSize := payloadSize

def freshProcessor : OTAImageProcessor (Option (List UInt8)) where
  mHeaderParser := none
  header := {}
  mBlock := []
  readHeader := false
  flashDataOffset := 0
  downloadedBytes := 0
  totalFileBytes := 0
  ended := none
  requests := []
  calls := []

def chipParser (payloadSize : ℕ) : OTAImageHeaderParser (Option (List UInt8)) :=
  knownHeaderParser (chipHeader payloadSize) (chipImageHeader payloadSize)

def granting : Environment where
  memoryAlloc _ := true
  answer _ := 0

def splitBlocks : List (List UInt8) :=
  [(chipHeader 3).take 10, (chipHeader 3).drop 10 ++ [7], [8, 9]]

theorem matter_blocks_reassembled_split :
    Reassembled (chipParser 3) granting (chipHeader 3) (chipImageHeader 3)
      (freshProcessor.handlePrepareDownload (chipParser 3))
        splitBlocks ((freshProcessor.handlePrepareDownload (chipParser 3)).deliver (chipParser 3)
          granting splitBlocks) ∧
      ((freshProcessor.handlePrepareDownload (chipParser 3)).deliver (chipParser 3) granting
        splitBlocks).calls = [.start 3 2, .write 0 [7], .write 1 [8, 9]] :=
  ⟨@matter_blocks_reassembled _ (chipParser 3) granting (chipHeader 3) [7, 8, 9] (chipImageHeader 3)
    _ (knownHeaderParser_consumes (chipImageHeader 3) (by decide)) rfl freshProcessor splitBlocks
    ⟨[], rfl⟩, rfl⟩

/-- The adapter is started once, with the size of the payload, and sees all of it. -/
def SeesPayload (header : OTAImageHeader) (payload : List UInt8) (calls : List MatterCall) : Prop :=
  ∃ chunks, calls = .start header.mPayloadSize header.mSoftwareVersion :: writesAt 0 chunks ∧
    chunks.flatten = payload

def busyAdapter : Environment where
  memoryAlloc _ := true
  answer _ := -1

def openedImage (payloadSize : ℕ) : OTAImageProcessor (Option (List UInt8)) :=
  ((freshProcessor.handlePrepareDownload (chipParser payloadSize)).processBlock
    (chipParser payloadSize) granting
    (chipHeader payloadSize)).processBlock (chipParser payloadSize) granting [0]

theorem oversized_calls (rest : List (List UInt8)) :
    ((freshProcessor.handlePrepareDownload (chipParser 4294967296)).deliver (chipParser 4294967296)
      granting (chipHeader 4294967296 :: [0] :: rest)).calls = [] := by
  have hheader : ((freshProcessor.handlePrepareDownload (chipParser 4294967296)).processBlock
    (chipParser 4294967296) granting
      (chipHeader 4294967296)).ended = none := by decide +kernel
  have hended : (openedImage 4294967296).ended ≠ none ∧
    (openedImage 4294967296).calls = [] := by decide +kernel
  rw [deliver_cons rfl, deliver_cons hheader]
  exact (congrArg OTAImageProcessor.calls (deliver_ended hended.1)).trans hended.2

theorem busy_calls :
    ((freshProcessor.handlePrepareDownload (chipParser 3)).deliver (chipParser 3) busyAdapter
      splitBlocks).calls = [.start 3 2] := rfl

/-- A payload beyond 32 bits starts nothing, even if every call is granted, and neither does an
empty one; a refused start is followed by no write. -/
theorem matter_blocks_not_seen :
    (¬SeesPayload (chipImageHeader (4294967296)) (List.replicate (2 ^ 32) 0)
      ((freshProcessor.handlePrepareDownload (chipParser 4294967296)).deliver
        (chipParser 4294967296) granting
        (chipHeader 4294967296 :: List.replicate 4294967296 [0])).calls) ∧
    (¬SeesPayload (chipImageHeader 0) []
      ((freshProcessor.handlePrepareDownload (chipParser 0)).deliver (chipParser 0) granting
        [chipHeader 0]).calls) ∧
    ¬SeesPayload (chipImageHeader 3) [7, 8, 9]
      ((freshProcessor.handlePrepareDownload (chipParser 3)).deliver (chipParser 3) busyAdapter
        splitBlocks).calls := by
  refine ⟨?_, ?_, ?_⟩
  · rintro ⟨chunks,hcalls,-⟩
    rw [show List.replicate 4294967296 [(0 : UInt8)] = [0] :: List.replicate 4294967295 [0]
      from rfl, oversized_calls] at hcalls
    cases hcalls
  · rintro ⟨chunks,hcalls,-⟩
    cases hcalls
  · rintro ⟨chunks,hcalls,hflatten⟩
    cases chunks with
    | nil => cases hflatten
    | cons chunk chunks =>
      have hlength := congrArg List.length hcalls
      exact absurd hlength (by rw [busy_calls]; nofun)

end Sonoff.Matter
