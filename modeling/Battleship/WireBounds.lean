import Battleship.Stream

/-! Which counts `_finishing_reading` computes for a pending fragment, and when they
stay within the buffer and the allocated bytes. -/
namespace Battleship

open Runs LittleEndian

/-- The type that `get_size` finds at the type field's place in the object. -/
def objectType (readed : List UInt8) : Option MsgType :=
  MsgType.ofCode (value ((readed.drop 12).take 4))

/-- The count for a fragment and the bytes that have arrived: all bytes up to the next
mark or, where these reach behind the object, the size of the object. -/
def finishingCount (frag : Fragment) (arrived : List UInt8) (type : MsgType) : Nat :=
  if getTypeSize type < frag.readed.length + nextStartPos arrived 0 then getTypeSize type
  else nextStartPos arrived 0

/-- The received part of the message holds the type field of an object. Up to the next
mark the bytes stay within that object and within the message, or they reach behind
the object and as many bytes as it has are there and fit into the message. -/
def InObject (frag : Fragment) (arrived : List UInt8) : Prop :=
  ∃ type, 16 ≤ frag.readed.length ∧ objectType frag.readed = some type ∧
    ((frag.readed.length + nextStartPos arrived 0 ≤ getTypeSize type ∧
        frag.readed.length + nextStartPos arrived 0 ≤ frag.allocated) ∨
      (getTypeSize type < frag.readed.length + nextStartPos arrived 0 ∧
        getTypeSize type ≤ arrived.length ∧
        frag.readed.length + getTypeSize type ≤ frag.allocated))

theorem getTypeSize_pos (type : MsgType) : 0 < getTypeSize type := by
  cases type <;> decide

theorem nextStartPos_pos {buf : List UInt8} (something : buf ≠ [])
    (unmarked : hasStartMark buf = false) : 0 < nextStartPos buf 0 := by
  obtain ⟨first, rest, rfl⟩ := List.exists_cons_of_ne_nil something
  have other : ¬ first = startMark := by simpa [hasStartMark] using unmarked
  unfold nextStartPos startMarkPos
  rw [List.drop_zero, List.findIdx?_cons]
  simp only [other, decide_false, Bool.false_eq_true, ↓reduceIte, Nat.zero_add]
  cases rest.findIdx? (· = startMark) <;> simp

structure Copies (frag : Fragment) (arrived : List UInt8) (type : MsgType) : Prop where
  long : 16 ≤ frag.readed.length
  known : objectType frag.readed = some type
  within : finishingCount frag arrived type ≤ arrived.length
  room : frag.readed.length + finishingCount frag arrived type ≤ frag.allocated

theorem inObject_iff {frag : Fragment} {arrived : List UInt8} :
    InObject frag arrived ↔ ∃ type, Copies frag arrived type := by
  have within : nextStartPos arrived 0 ≤ arrived.length := nextStartPos_le
  have unfolded (type : MsgType) : Copies frag arrived type ↔ 16 ≤ frag.readed.length ∧
      objectType frag.readed = some type ∧ finishingCount frag arrived type ≤ arrived.length ∧
      frag.readed.length + finishingCount frag arrived type ≤ frag.allocated :=
    ⟨fun copies => ⟨copies.long, copies.known, copies.within, copies.room⟩,
      fun ⟨long, known, within, room⟩ => ⟨long, known, within, room⟩⟩
  simp only [unfolded]
  refine exists_congr fun type => and_congr_right fun _ => and_congr_right fun _ => ?_
  unfold finishingCount
  by_cases behind : getTypeSize type < frag.readed.length + nextStartPos arrived 0
  · simp only [if_pos behind]
    omega
  · simp only [if_neg behind]
    omega

namespace MsgBuffer

theorem reading_pending {b : MsgBuffer} {frag : Fragment} (pending : b.toExtractMsg = some frag)
    (large : b.isTooSmall = false) (something : b.buf ≠ []) :
    b.reading = objectSize frag >>= fun size =>
      .ok (if size < frag.readed.length + nextStartPos b.buf 0 then size
        else nextStartPos b.buf 0, b) := by
  simp only [reading, pending, finishingReading, if_neg something, large, Bool.false_eq_true,
    ↓reduceIte, Bind.bind, Except.bind]
  cases objectSize frag with
  | error fault => rfl
  | ok size =>
      simp only
      split <;> rfl

theorem objectSize_short {frag : Fragment} (short : frag.readed.length < 16) :
    objectSize frag = .error .unreceived := by
  rw [objectSize, if_pos short]

theorem objectSize_unknown {frag : Fragment} (long : 16 ≤ frag.readed.length)
    (unknown : objectType frag.readed = none) : objectSize frag = .ok (-1) := by
  rw [objectSize, if_neg (by omega)]
  unfold objectType at unknown
  rw [unknown]

theorem objectSize_known {frag : Fragment} {type : MsgType} (long : 16 ≤ frag.readed.length)
    (known : objectType frag.readed = some type) : objectSize frag = .ok (getTypeSize type) := by
  rw [objectSize, if_neg (by omega)]
  unfold objectType at known
  rw [known]

theorem reading_known {b : MsgBuffer} {frag : Fragment} {type : MsgType}
    (pending : b.toExtractMsg = some frag) (large : b.isTooSmall = false)
    (something : b.buf ≠ []) (long : 16 ≤ frag.readed.length)
    (known : objectType frag.readed = some type) :
    b.reading = .ok ((finishingCount frag b.buf type : Int), b) := by
  rw [reading_pending pending large something, objectSize_known long known]
  simp only [Bind.bind, Except.bind, Except.ok.injEq, Prod.mk.injEq, and_true, finishingCount]
  norm_cast

theorem finishingCount_pos (frag : Fragment) {buf : List UInt8} (type : MsgType)
    (something : buf ≠ []) (unmarked : hasStartMark buf = false) :
    0 < finishingCount frag buf type := by
  have object := getTypeSize_pos type
  have bytes := nextStartPos_pos something unmarked
  unfold finishingCount
  split
  · exact object
  · exact bytes

/-- A pending fragment and no mark in front: the loop begins with the fragment. -/
theorem gainMsg_pending {b : MsgBuffer} {frag : Fragment} (pending : b.toExtractMsg = some frag)
    (unmarked : hasStartMark b.buf = false) :
    ∃ c : MsgBuffer, c.buf = b.buf ∧ c.toExtractMsg = some frag ∧ c.msgQueue = b.msgQueue ∧
      c.isTooSmall = false ∧
      b.gainMsg = gainLoop (b.buf.length + 1) c >>= fun result => .ok (.buffOk, result) := by
  refine ⟨{ b with isTooSmall := false }, rfl, pending, rfl, rfl, ?_⟩
  simp [gainMsg, pending, unmarked, Bind.bind, Except.bind]

theorem gainLoop_stops (turns : Nat) {b : MsgBuffer} {frag : Fragment}
    (pending : b.toExtractMsg = some frag) (large : b.isTooSmall = false)
    (unmarked : hasStartMark b.buf = false) (something : b.buf ≠ [])
    (outside : ¬ InObject frag b.buf) : ∃ fault, gainLoop (turns + 1) b = .error fault := by
  have read := reading_pending pending large something
  -- The type field of the object ends at byte 16.
  rcases Nat.lt_or_ge frag.readed.length 16 with short | long
  · rw [objectSize_short short] at read
    exact ⟨.unreceived, by simp [gainLoop, something, read, Bind.bind, Except.bind]⟩
  cases known : objectType frag.readed with
  | none =>
      rw [objectSize_unknown long known] at read
      -- The size of an object without a type is -1, which then counts the bytes to copy.
      have below : (-1 : Int) < frag.readed.length + nextStartPos b.buf 0 := by omega
      exact ⟨.badCount, by
        simp [gainLoop, something, read, Bind.bind, Except.bind, below, extractBytes]⟩
  | some type =>
      rw [reading_known pending large something long known] at read
      have positive := finishingCount_pos frag type something unmarked
      have counted : ¬ (finishingCount frag b.buf type : Int) = 0 := by omega
      by_cases within : finishingCount frag b.buf type ≤ b.buf.length
      · have beyond : frag.allocated < frag.readed.length + finishingCount frag b.buf type := by
          by_contra room
          exact outside (inObject_iff.mpr ⟨type, long, known, within, Nat.le_of_not_lt room⟩)
        have fits : ¬ ((finishingCount frag b.buf type : Int) < 0 ∨
            (b.buf.length : Int) < finishingCount frag b.buf type) := by omega
        have copied : frag.allocated <
            (frag.readed ++ b.buf.take (finishingCount frag b.buf type)).length := by
          rw [List.length_append, List.length_take_of_le within]
          exact beyond
        exact ⟨.overrun, by
          simp only [gainLoop, if_neg something, reading_known pending large something long known,
            Bind.bind, Except.bind, if_neg counted, extractBytes, if_neg fits, pending,
            Int.toNat_natCast, if_pos copied]⟩
      · have bad : ((finishingCount frag b.buf type : Int) < 0 ∨
            (b.buf.length : Int) < finishingCount frag b.buf type) := by omega
        exact ⟨.badCount, by
          simp only [gainLoop, if_neg something, reading_known pending large something long known,
            Bind.bind, Except.bind, if_neg counted, extractBytes, if_pos bad]⟩

theorem gainMsg_stops {b : MsgBuffer} {frag : Fragment} (pending : b.toExtractMsg = some frag)
    (unmarked : hasStartMark b.buf = false) (something : b.buf ≠ [])
    (outside : ¬ InObject frag b.buf) : ∃ fault, b.gainMsg = .error fault := by
  obtain ⟨c, same, pending', -, large, gained⟩ := gainMsg_pending pending unmarked
  obtain ⟨fault, stopped⟩ := gainLoop_stops b.buf.length pending' large
    (same ▸ unmarked) (same ▸ something) (same ▸ outside)
  exact ⟨fault, by rw [gained, stopped]; rfl⟩

section Copied

variable {b : MsgBuffer} {frag : Fragment} {type : MsgType}
  (pending : b.toExtractMsg = some frag) (unmarked : hasStartMark b.buf = false)
  (something : b.buf ≠ []) (copies : Copies frag b.buf type)

include pending unmarked something copies

theorem gainMsg_copies : ∃ d : MsgBuffer,
    d.Leaves b.msgQueue
      (some ⟨frag.allocated, frag.readed ++ b.buf.take (finishingCount frag b.buf type)⟩)
      (b.buf.drop (finishingCount frag b.buf type)) ∧
    b.gainMsg =
      (match createInstance (frag.readed ++ b.buf.take (finishingCount frag b.buf type)) with
        | some msg =>
            gainLoop b.buf.length
              { d with toExtractMsg := none, msgQueue := d.msgQueue ++ [msg] }
        | none => .ok d) >>= fun result => .ok (.buffOk, result) := by
  obtain ⟨c, same, pending', queue, large, gained⟩ := gainMsg_pending pending unmarked
  rw [gained]
  simp only [← same, ← queue] at *
  have read := reading_known pending' large something copies.long copies.known
  obtain ⟨d, leaves, turn⟩ := gainLoop_turn c.buf.length something read pending'
    (finishingCount_pos frag type something unmarked) copies.within copies.room
  let queued (looped : Except BufFault MsgBuffer) : Except BufFault (BuffError × MsgBuffer) :=
    looped >>= fun result => .ok (.buffOk, result)
  exact ⟨d, leaves, congrArg queued turn⟩

/-- The message is complete: it is queued and what follows is drained. -/
theorem gainMsg_completes {msg : Message} {msgs : List Message} {frag' : Option Fragment}
    {left : List UInt8}
    (created :
      createInstance (frag.readed ++ b.buf.take (finishingCount frag b.buf type)) = some msg)
    (drains : Drains (b.buf.drop (finishingCount frag b.buf type)) msgs frag' left) :
    ∃ b', b.gainMsg = .ok (.buffOk, b') ∧ b'.Leaves (b.msgQueue ++ msg :: msgs) frag' left := by
  obtain ⟨d, leaves, turn⟩ := gainMsg_copies pending unmarked something copies
  have shorter : (b.buf.drop (finishingCount frag b.buf type)).length < b.buf.length := by
    have positive := finishingCount_pos frag type something unmarked
    have within := copies.within
    simp only [List.length_drop]
    omega
  obtain ⟨b', looped, queued, rest⟩ := gainLoop_drains drains shorter
    (b := { d with toExtractMsg := none, msgQueue := d.msgQueue ++ [msg] }) leaves.2.2 rfl
  refine ⟨b', ?_, ?_, rest⟩
  · rw [turn, created]
    simp only [looped, Bind.bind, Except.bind]
  · rw [queued, leaves.1, List.append_assoc, List.singleton_append]

theorem gainMsg_waits
    (created : createInstance (frag.readed ++ b.buf.take (finishingCount frag b.buf type)) = none) :
    ∃ b', b.gainMsg = .ok (.buffOk, b') ∧ b'.Leaves b.msgQueue
      (some ⟨frag.allocated, frag.readed ++ b.buf.take (finishingCount frag b.buf type)⟩)
      (b.buf.drop (finishingCount frag b.buf type)) := by
  obtain ⟨d, leaves, turn⟩ := gainMsg_copies pending unmarked something copies
  exact ⟨d, by rw [turn, created]; rfl, leaves⟩

end Copied

end MsgBuffer

/-- The read stores nothing, or no fragment is pending, or it is dropped because a mark
follows, or the copy stays in its bounds. -/
def KeepsBounds (reader : Reader) (chunk : List UInt8) : Prop :=
  chunk = [] ∨ reader.buffer.buf.length = buffSize ∨
    ∀ frag, reader.buffer.toExtractMsg = some frag →
      hasStartMark (reader.arrived chunk) = true ∨ InObject frag (reader.arrived chunk)

theorem Reader.arrived_ne_nil {reader : Reader} {chunk : List UInt8} (something : chunk ≠ [])
    (room : reader.buffer.buf.length ≠ buffSize) : reader.arrived chunk ≠ [] := by
  obtain ⟨first, rest, rfl⟩ := List.exists_cons_of_ne_nil something
  have fits := reader.buffer.fits
  rw [← List.length_pos_iff, arrived_eq]
  simp only [List.length_append, List.length_take, List.length_cons]
  omega

namespace Reader

section Copied

variable (fd : Nat) {reader : Reader} {chunk : List UInt8} {frag : Fragment} {type : MsgType}
  (something : chunk ≠ []) (room : reader.buffer.buf.length ≠ buffSize)
  (pending : reader.buffer.toExtractMsg = some frag)
  (unmarked : hasStartMark (reader.arrived chunk) = false)
  (copies : Copies frag (reader.arrived chunk) type)

include something room pending unmarked copies

theorem step_completes {msg : Message} {msgs : List Message} {frag' : Option Fragment}
    {left : List UInt8}
    (created : createInstance (frag.readed ++
      (reader.arrived chunk).take (finishingCount frag (reader.arrived chunk) type)) = some msg)
    (drains : Drains ((reader.arrived chunk).drop
      (finishingCount frag (reader.arrived chunk) type)) msgs frag' left) :
    ∃ reader', step fd reader chunk = .ok reader' ∧ reader'.msgs = reader.msgs ++ msg :: msgs ∧
      reader'.buffer.toExtractMsg = frag' ∧ reader'.buffer.buf = left := by
  obtain ⟨b, gained, leaves⟩ :=
    MsgBuffer.gainMsg_completes (b := reader.buffer.receive chunk) pending unmarked
      (arrived_ne_nil something room) copies created drains
  exact step_gains fd something room gained leaves

theorem step_waits
    (created : createInstance (frag.readed ++
      (reader.arrived chunk).take (finishingCount frag (reader.arrived chunk) type)) = none) :
    ∃ reader', step fd reader chunk = .ok reader' ∧ reader'.msgs = reader.msgs ∧
      reader'.buffer.toExtractMsg = some ⟨frag.allocated, frag.readed ++
        (reader.arrived chunk).take (finishingCount frag (reader.arrived chunk) type)⟩ ∧
      reader'.buffer.buf =
        (reader.arrived chunk).drop (finishingCount frag (reader.arrived chunk) type) := by
  obtain ⟨b, gained, leaves⟩ :=
    MsgBuffer.gainMsg_waits (b := reader.buffer.receive chunk) pending unmarked
      (arrived_ne_nil something room) copies created
  have queued := leaves.1.trans (List.append_nil _).symm
  obtain ⟨reader', done, received, rest⟩ :=
    step_gains fd something room gained ⟨queued, leaves.2⟩
  exact ⟨reader', done, received.trans (List.append_nil _), rest⟩

end Copied

theorem step_ok_iff (fd : Nat) (reader : Reader) (chunk : List UInt8) :
    (∃ reader', step fd reader chunk = .ok reader') ↔ KeepsBounds reader chunk := by
  by_cases idle : chunk = [] ∨ reader.buffer.buf.length = buffSize
  · refine iff_of_true ⟨_, step_idle idle⟩ ?_
    rcases idle with empty | full
    · exact .inl empty
    · exact .inr (.inl full)
  obtain ⟨something, room⟩ := not_or.mp idle
  constructor
  · rintro ⟨reader', done⟩
    refine .inr (.inr fun frag pending => or_iff_not_imp_left.mpr fun unmarked => ?_)
    by_contra outside
    obtain ⟨fault, stopped⟩ := MsgBuffer.gainMsg_stops (b := reader.buffer.receive chunk) pending
      (Bool.eq_false_iff.mpr unmarked) (arrived_ne_nil something room) outside
    rw [step_reads something room, stopped] at done
    cases done
  · rintro (empty | full | bounds)
    · exact absurd empty something
    · exact absurd full room
    -- Without a fragment, or with one that is dropped, nothing is copied behind anything.
    by_cases fresh : reader.buffer.toExtractMsg = none ∨ hasStartMark (reader.arrived chunk) = true
    · obtain ⟨msgs, frag, left, drains⟩ := drains_total (reader.arrived chunk)
      obtain ⟨reader', done, -⟩ := step_drains fd something room fresh drains
      exact ⟨reader', done⟩
    · obtain ⟨waiting, marked⟩ := not_or.mp fresh
      have unmarked := Bool.eq_false_iff.mpr marked
      obtain ⟨frag, pending⟩ := Option.ne_none_iff_exists'.mp waiting
      obtain ⟨type, copies⟩ := inObject_iff.mp ((bounds frag pending).resolve_left marked)
      cases created : createInstance (frag.readed ++
          (reader.arrived chunk).take (finishingCount frag (reader.arrived chunk) type)) with
      | none =>
          obtain ⟨reader', done, -⟩ := step_waits fd something room pending unmarked copies
            created
          exact ⟨reader', done⟩
      | some msg =>
          obtain ⟨msgs, frag', left, drains⟩ := drains_total
            ((reader.arrived chunk).drop (finishingCount frag (reader.arrived chunk) type))
          obtain ⟨reader', done, -⟩ := step_completes fd something room pending unmarked
            copies created drains
          exact ⟨reader', done⟩

end Reader

/-- The counts and positions stay in their bounds all along a stream exactly when each
read finds no fragment it would go on with, or one whose copy stays inside. -/
theorem wire_bounds_iff (fd : Nat) (chunks : List (List UInt8)) :
    (∃ reader, run (Reader.step fd) Reader.init chunks = .ok reader ∧
        reader.buffer.buf.length ≤ buffSize) ↔
      AllSteps (Reader.step fd) KeepsBounds Reader.init chunks := by
  rw [← run_ok_iff_allSteps (Reader.step fd) (Reader.step_ok_iff fd)]
  exact exists_congr fun reader => and_iff_left reader.buffer.fits

/-- The header of a message and then its rest: the type of the object is asked for
before the bytes are there. -/
theorem header_alone_unreceived :
    ¬ ∃ reader, run (Reader.step 4) Reader.init
        [(Message.mk 1 (.gameState 7)).getData.take headerSize,
          (Message.mk 1 (.gameState 7)).getData.drop headerSize] = .ok reader ∧
      reader.buffer.buf.length ≤ buffSize := by
  rintro ⟨reader, done, -⟩
  have stopped : (run (Reader.step 4) Reader.init
      [(Message.mk 1 (.gameState 7)).getData.take headerSize,
        (Message.mk 1 (.gameState 7)).getData.drop headerSize]).map (fun _ => ()) =
      .error .unreceived := by
    decide +kernel
  rw [done] at stopped
  cases stopped

end Battleship
