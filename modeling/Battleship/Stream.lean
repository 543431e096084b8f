import Battleship.Draining

/-! Reading a byte stream chunk by chunk: `read_msg` and then `extract` until the
queue is empty, as `ClientData::read_msg` does. -/
namespace Battleship

open Runs LittleEndian

/-- A buffer and the messages that were extracted from it. -/
structure Reader where
  buffer : MsgBuffer
  extracted : List Message

namespace Reader

def init : Reader := ⟨MsgBuffer.init, []⟩

def step (fd : Nat) (reader : Reader) (chunk : List UInt8) : Except BufFault Reader := do
  let (_, buffer) ← reader.buffer.readMsg fd (some chunk)
  let (msgs, buffer) := buffer.drain
  .ok ⟨buffer, reader.extracted ++ msgs⟩

/-- All messages that came out of the stream, the queued ones included. -/
def msgs (reader : Reader) : List Message := reader.extracted ++ reader.buffer.msgQueue

/-- The bytes in the buffer once the chunk has arrived. -/
def arrived (reader : Reader) (chunk : List UInt8) : List UInt8 := (reader.buffer.receive chunk).buf

theorem arrived_eq (reader : Reader) (chunk : List UInt8) :
    reader.arrived chunk =
      reader.buffer.buf ++ chunk.take (buffSize - reader.buffer.buf.length) := rfl

theorem arrived_of_room {reader : Reader} {chunk : List UInt8}
    (room : reader.buffer.buf.length + chunk.length ≤ buffSize) :
    reader.arrived chunk = reader.buffer.buf ++ chunk := by
  rw [arrived_eq, List.take_of_length_le (by omega)]

/-- A read that stores nothing changes nothing but the place of the messages. -/
theorem step_idle {fd : Nat} {reader : Reader} {chunk : List UInt8}
    (idle : chunk = [] ∨ reader.buffer.buf.length = buffSize) :
    step fd reader chunk =
      .ok ⟨{ reader.buffer with msgQueue := [] }, reader.msgs⟩ := by
  have opened : ¬ (fd : Int) < 0 := by omega
  by_cases full : buffSize - reader.buffer.buf.length = 0
  · simp [step, MsgBuffer.readMsg, opened, full, Bind.bind, Except.bind, MsgBuffer.drain, msgs]
  · obtain rfl : chunk = [] := idle.resolve_right (by omega)
    simp [step, MsgBuffer.readMsg, opened, full, Bind.bind, Except.bind, MsgBuffer.drain, msgs]

theorem step_reads {fd : Nat} {reader : Reader} {chunk : List UInt8} (something : chunk ≠ [])
    (room : reader.buffer.buf.length ≠ buffSize) :
    step fd reader chunk = (reader.buffer.receive chunk).gainMsg >>= fun gained =>
      .ok ⟨{ gained.2 with msgQueue := [] }, reader.extracted ++ gained.2.msgQueue⟩ := by
  have opened : ¬ (fd : Int) < 0 := by omega
  have fits := reader.buffer.fits
  have free : ¬ buffSize - reader.buffer.buf.length = 0 := by omega
  obtain ⟨first, rest, rfl⟩ := List.exists_cons_of_ne_nil something
  simp only [step, MsgBuffer.readMsg, opened, free, ↓reduceIte, MsgBuffer.drain, Bind.bind,
    Except.bind]
  cases gained : (reader.buffer.receive (first :: rest)).gainMsg <;> rfl

/-- What `_gain_msg` leaves behind is what the step leaves behind. -/
theorem step_gains (fd : Nat) {reader : Reader} {chunk : List UInt8} {err : BuffError}
    {b : MsgBuffer} {msgs : List Message} {frag : Option Fragment} {left : List UInt8}
    (something : chunk ≠ []) (room : reader.buffer.buf.length ≠ buffSize)
    (gained : (reader.buffer.receive chunk).gainMsg = .ok (err, b))
    (leaves : b.Leaves (reader.buffer.msgQueue ++ msgs) frag left) :
    ∃ reader', step fd reader chunk = .ok reader' ∧ reader'.msgs = reader.msgs ++ msgs ∧
      reader'.buffer.toExtractMsg = frag ∧ reader'.buffer.buf = left := by
  obtain ⟨queued, pending, stays⟩ := leaves
  refine ⟨⟨{ b with msgQueue := [] }, reader.extracted ++ b.msgQueue⟩, ?_, ?_, pending, stays⟩
  · rw [step_reads something room, gained]
    rfl
  · simp only [Reader.msgs, List.append_nil, queued, List.append_assoc]

/-- A read with nothing pending, or with a mark in front that drops the fragment. -/
theorem step_drains (fd : Nat) {reader : Reader} {chunk : List UInt8} {msgs : List Message}
    {frag : Option Fragment} {left : List UInt8} (something : chunk ≠ [])
    (room : reader.buffer.buf.length ≠ buffSize)
    (fresh : reader.buffer.toExtractMsg = none ∨ hasStartMark (reader.arrived chunk) = true)
    (drains : Drains (reader.arrived chunk) msgs frag left) :
    ∃ reader', step fd reader chunk = .ok reader' ∧ reader'.msgs = reader.msgs ++ msgs ∧
      reader'.buffer.toExtractMsg = frag ∧ reader'.buffer.buf = left := by
  obtain ⟨err, b, gained, leaves⟩ :=
    MsgBuffer.gainMsg_drains (b := reader.buffer.receive chunk) drains fresh
  exact step_gains fd something room gained leaves

end Reader

inductive Piece where
  | whole (msg : Message)
  | noise (bytes : List UInt8)

def Piece.bytes : Piece → List UInt8
  | .whole msg => msg.getData
  | .noise bytes => bytes

def Piece.msg? : Piece → Option Message
  | .whole msg => some msg
  | .noise _ => none

/-- What one read brings: encodings and bytes without a mark, and the beginning of a
last encoding whose rest does not follow. -/
structure Chunk where
  pieces : List Piece
  cut : List UInt8
  clean : ∀ bytes, Piece.noise bytes ∈ pieces → startMark ∉ bytes
  proper : ∃ msg : Message, cut <+: msg.getData ∧ cut ≠ msg.getData
  fits : (pieces.flatMap Piece.bytes ++ cut).length ≤ buffSize

namespace Chunk

def bytes (chunk : Chunk) : List UInt8 := chunk.pieces.flatMap Piece.bytes ++ chunk.cut

def msgs (chunk : Chunk) : List Message := chunk.pieces.filterMap Piece.msg?

/-- The second chunk may follow the first: after a truncated encoding it begins with
a complete one. -/
def Precedes (chunk next : Chunk) : Prop :=
  chunk.cut ≠ [] → ∃ msg rest, next.pieces = Piece.whole msg :: rest

end Chunk

theorem getData_cons (msg : Message) :
    ∃ rest, msg.getData = startMark :: rest := ⟨_, rfl⟩

theorem getType_getData (msg : Message) (rest : List UInt8) :
    getType (msg.getData ++ rest) = some msg.type := by
  have code : typeCode (msg.getData ++ rest) = msg.type.code := by
    rw [Message.getData, List.append_assoc]
    exact typeCode_header _ _ _
  have size := msg.getData_length
  have header := minSize_lt_getTypeDataSize msg.type
  have large : isTooSmall (msg.getData ++ rest).length = false := by
    simp only [isTooSmall, List.length_append, decide_eq_false_iff_not]
    omega
  rw [getType, large, code, MsgType.ofCode_code]
  rfl

theorem resync_getData (msg : Message) (rest : List UInt8) :
    resync (msg.getData ++ rest) = msg.getData ++ rest := by
  refine resync_of_header ?_ ?_
  · obtain ⟨tail, cons⟩ := getData_cons msg
    rw [cons]
    rfl
  · rw [getMsgType_known.mpr (getType_getData msg rest)]
    exact FoundType.noConfusion

theorem drains_whole {msg : Message} {rest : List UInt8} {msgs : List Message}
    {frag : Option Fragment} {left : List UInt8} (more : Drains rest msgs frag left) :
    Drains (msg.getData ++ rest) (msg :: msgs) frag left := by
  have size := msg.getData_length
  refine .whole (resync_getData msg rest) (getType_getData msg rest) ?_ ?_ ?_
  · simp [size]
  · rw [← size, List.take_left, createInstance_getData]
  · rwa [← size, List.drop_left]

/-- The first bytes of an encoding: after the mark there is none before the id. -/
theorem header_bytes (msg : Message) :
    ∃ code rest, msg.getData = startMark :: code :: 0 :: 0 :: 0 :: rest ∧ code ≠ startMark := by
  refine ⟨UInt8.ofNat msg.type.code, bytes 8 msg.id.toUInt64.toNat ++ bodyData msg.body, ?_, ?_⟩
  · simp only [Message.getData, setHeaderData]
    cases msg.type <;> rfl
  · cases msg.type <;> decide

theorem getType_prefix {msg : Message} {cut : List UInt8} (start : cut <+: msg.getData)
    (long : minSize ≤ cut.length) : getType cut = some msg.type := by
  have whole := getType_getData msg []
  rw [List.append_nil] at whole
  rw [List.prefix_iff_eq_take.mp start, getType_take long start.length_le, whole]

theorem nextStartPos_header {msg : Message} {cut : List UInt8} (start : cut <+: msg.getData)
    (short : cut.length < minSize) : nextStartPos cut 1 = cut.length := by
  obtain ⟨code, rest, bytes, other⟩ := header_bytes msg
  rw [bytes] at start
  have missing : startMarkPos cut 1 = none := by
    rw [startMarkPos, Option.map_eq_none_iff, List.findIdx?_eq_none_iff]
    intro byte member
    have tail : cut.drop 1 <+: [code, 0, 0, 0] := by
      have prefix_four := start.drop 1
      rw [List.prefix_iff_eq_take] at prefix_four
      rw [prefix_four]
      have count : (cut.drop 1).length ≤ 4 := by
        simp only [List.length_drop, minSize] at *
        omega
      simpa using List.take_prefix_take_left count (l := code :: 0 :: 0 :: 0 :: rest)
    have among := tail.subset member
    have zero : (0 : UInt8) ≠ startMark := by decide
    simp only [List.mem_cons, List.not_mem_nil, or_false] at among
    rcases among with rfl | rfl | rfl | rfl <;> simpa using by assumption
  rw [nextStartPos, missing]
  rfl

/-- The fragment holds the beginning of an encoding, and has been given the size of the
message if the type was there to see. -/
def Holds (frag : Option Fragment) (cut : List UInt8) (msg : Message) : Prop :=
  match frag with
  | none => cut = []
  | some frag => frag.readed = cut ∧ cut ≠ [] ∧
      (minSize ≤ cut.length → frag.allocated = msg.getData.length)

theorem Holds.none_of_nil {frag : Option Fragment} {msg : Message} (holds : Holds frag [] msg) :
    frag = none := by
  cases frag with
  | none => rfl
  | some frag => exact absurd rfl holds.2.1

theorem drains_cut {msg : Message} {cut : List UInt8} (start : cut <+: msg.getData)
    (proper : cut ≠ msg.getData) : ∃ frag, Drains cut [] frag [] ∧ Holds frag cut msg := by
  have size := msg.getData_length
  have shorter : cut.length < msg.getData.length :=
    Nat.lt_of_le_of_ne start.length_le fun same => proper (start.eq_of_length same)
  by_cases empty : cut = []
  · subst empty
    exact ⟨none, .done (resync_none rfl), rfl⟩
  have mark : hasStartMark cut = true := by
    obtain ⟨first, rest, rfl⟩ := List.exists_cons_of_ne_nil empty
    obtain ⟨tail, cons⟩ := getData_cons msg
    rw [cons, List.cons_prefix_cons] at start
    simp [hasStartMark, start.1]
  rcases Nat.lt_or_ge cut.length minSize with short | long
  · have undefined := getMsgType_undefined.mpr short
    have here : resync cut = cut :=
      resync_of_header mark (by rw [undefined]; exact FoundType.noConfusion)
    have drains := Drains.cut here empty short
    rw [nextStartPos_header start short, List.drop_length, List.take_length] at drains
    exact ⟨_, drains, rfl, empty, fun long => absurd long (by omega)⟩
  · have known := getType_prefix start long
    have here : resync cut = cut :=
      resync_of_header mark (by rw [getMsgType_known.mpr known]; exact FoundType.noConfusion)
    exact ⟨_, .part here known (by omega), rfl, empty, fun _ => size.symm⟩

theorem drains_pieces {pieces : List Piece} {cut : List UInt8} {frag : Option Fragment}
    (clean : ∀ bytes, Piece.noise bytes ∈ pieces → startMark ∉ bytes)
    (rest : Drains cut [] frag []) :
    Drains (pieces.flatMap Piece.bytes ++ cut) (pieces.filterMap Piece.msg?) frag [] := by
  induction pieces with
  | nil => exact rest
  | cons piece pieces ih =>
      have tail := ih fun bytes member => clean bytes (List.mem_cons_of_mem _ member)
      rw [List.flatMap_cons, List.append_assoc]
      cases piece with
      | whole msg => exact drains_whole tail
      | noise bytes =>
          exact tail.of_resync (resync_noise (clean bytes List.mem_cons_self) _)

theorem Chunk.drains (chunk : Chunk) :
    ∃ frag, Drains chunk.bytes chunk.msgs frag [] ∧ (chunk.cut = [] → frag = none) := by
  obtain ⟨msg, start, other⟩ := chunk.proper
  obtain ⟨frag, last, holds⟩ := drains_cut start other
  exact ⟨frag, drains_pieces chunk.clean last, fun empty => (empty ▸ holds).none_of_nil⟩

theorem Chunk.bytes_ne_nil {chunk : Chunk} {msg : Message}
    (member : Piece.whole msg ∈ chunk.pieces) : chunk.bytes ≠ [] := by
  intro empty
  have pieces : chunk.pieces.flatMap Piece.bytes = [] := (List.append_eq_nil_iff.mp empty).1
  have none : msg.getData = [] := List.flatMap_eq_nil_iff.mp pieces _ member
  obtain ⟨rest, cons⟩ := getData_cons msg
  rw [cons] at none
  cases none

theorem Chunk.msgs_of_empty {chunk : Chunk} (empty : chunk.bytes = []) : chunk.msgs = [] := by
  rw [Chunk.msgs, List.filterMap_eq_nil_iff]
  intro piece member
  cases piece with
  | whole msg => exact absurd empty (Chunk.bytes_ne_nil member)
  | noise bytes => rfl

def ReadyFor (reader : Reader) (pieces : List Piece) : Prop :=
  reader.buffer.buf = [] ∧
    (reader.buffer.toExtractMsg = none ∨ ∃ msg rest, pieces = Piece.whole msg :: rest)

theorem Reader.step_chunk (fd : Nat) {reader : Reader} {chunk : Chunk}
    (ready : ReadyFor reader chunk.pieces) :
    ∃ reader', step fd reader chunk.bytes = .ok reader' ∧
      reader'.msgs = reader.msgs ++ chunk.msgs ∧ reader'.buffer.buf = [] ∧
      (chunk.cut = [] → reader'.buffer.toExtractMsg = none) := by
  obtain ⟨empty, fresh⟩ := ready
  by_cases nothing : chunk.bytes = []
  · refine ⟨_, step_idle (.inl nothing), ?_, empty, fun _ => ?_⟩
    · simp [Reader.msgs, Chunk.msgs_of_empty nothing]
    · refine fresh.resolve_right ?_
      rintro ⟨msg, rest, pieces⟩
      exact Chunk.bytes_ne_nil (pieces ▸ List.mem_cons_self) nothing
  have room : reader.buffer.buf.length ≠ buffSize := by
    rw [empty]
    decide
  have whole : reader.arrived chunk.bytes = chunk.bytes := by
    have fits : chunk.bytes.length ≤ buffSize := chunk.fits
    rw [arrived_of_room (by rw [empty, List.length_nil]; omega), empty, List.nil_append]
  have marked : reader.buffer.toExtractMsg = none ∨
      hasStartMark (reader.arrived chunk.bytes) = true := by
    refine fresh.imp_right ?_
    rintro ⟨msg, rest, pieces⟩
    obtain ⟨tail, cons⟩ := getData_cons msg
    rw [whole, Chunk.bytes, pieces, List.flatMap_cons, Piece.bytes, cons]
    rfl
  obtain ⟨frag, drains, aligned⟩ := chunk.drains
  obtain ⟨reader', done, received, pending, left⟩ :=
    step_drains fd nothing room marked (whole.symm ▸ drains)
  exact ⟨reader', done, received, left, fun cut => pending.trans (aligned cut)⟩

/-- Noise and truncated encodings are dropped and every complete encoding arrives. -/
theorem reader_resynchronises (fd : Nat) (reader : Reader) (chunks : List Chunk)
    (empty : reader.buffer.buf = []) (fresh : reader.buffer.toExtractMsg = none)
    (follows : chunks.IsChain Chunk.Precedes) :
    ∃ reader', run (Reader.step fd) reader (chunks.map Chunk.bytes) = .ok reader' ∧
      reader'.msgs = reader.msgs ++ chunks.flatMap Chunk.msgs := by
  have ready : ∀ chunk ∈ chunks.head?, ReadyFor reader chunk.pieces :=
    fun _ _ => ⟨empty, .inl fresh⟩
  clear empty fresh
  induction chunks generalizing reader with
  | nil => exact ⟨reader, rfl, by simp⟩
  | cons chunk chunks ih =>
      obtain ⟨middle, first, received, left, aligned⟩ :=
        Reader.step_chunk fd (ready chunk rfl)
      have next : ∀ chunk' ∈ chunks.head?, ReadyFor middle chunk'.pieces := by
        intro chunk' head
        refine ⟨left, ?_⟩
        by_cases cut : chunk.cut = []
        · exact .inl (aligned cut)
        · right
          obtain ⟨others, rfl⟩ : ∃ others, chunks = chunk' :: others := by
            cases chunks with
            | nil => cases head
            | cons first others => exact ⟨others, by rw [Option.mem_some_iff.mp head]⟩
          exact (List.isChain_cons_cons.mp follows).1 cut
      obtain ⟨last, rest, whole⟩ := ih middle follows.tail next
      refine ⟨last, (run_cons_ok _ first).mpr rest, ?_⟩
      rw [whole, received, List.flatMap_cons, List.append_assoc]

/-- A message, noise and a truncated receipt; then a message whose id has marks in it. -/
theorem reader_resynchronises_marks :
    ∃ reader', run (Reader.step 4) Reader.init
        [(Message.mk 7 .serverConnReq).getData ++ [1, 2, 3] ++ [96, 12, 0, 0, 0, 9],
          (Message.mk 0x60606060 .stopPreparation).getData] = .ok reader' ∧
      reader'.msgs = [⟨7, .serverConnReq⟩, ⟨0x60606060, .stopPreparation⟩] :=
  reader_resynchronises 4 Reader.init
    [{ pieces := [.whole ⟨7, .serverConnReq⟩, .noise [1, 2, 3]]
       cut := [96, 12, 0, 0, 0, 9]
       clean := by
         intro bytes member
         obtain rfl : bytes = [1, 2, 3] := by simpa using member
         decide
       proper := ⟨⟨9, .receipt 1⟩, by decide, by decide⟩
       fits := by decide },
     { pieces := [.whole ⟨0x60606060, .stopPreparation⟩]
       cut := []
       clean := by simp
       proper := ⟨⟨1, .stopPreparation⟩, List.nil_prefix, by decide⟩
       fits := by decide }]
    rfl rfl (by simp [Chunk.Precedes])

end Battleship
