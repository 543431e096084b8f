import Battleship.Message
import Battleship.Library.Runs

/-! The receiving side of a connection: `MsgBuffer` of core/msg_buffer.cpp. The
array `buf` is the list of its first `free_pos` bytes; what lies behind them is
never looked at. A loop takes the number of its turns and fails with `running`
when they do not suffice. -/
namespace Battleship

open Runs LittleEndian

def buffSize : Nat := 4096

inductive BuffError where
  | invalidFd
  | connBroken
  | fullBuff
  | emptyBuff
  | readErr
  | toSmallMsgErr
  | invalidMsgErr
  | buffOk
  deriving DecidableEq, Repr

inductive BufFault where
  /-- The type of an object is taken from bytes that have not been received. -/
  | unreceived
  /-- `to_write` is negative or larger than `free_pos`. -/
  | badCount
  /-- A copy ends behind the allocated bytes. -/
  | overrun
  | running
  deriving DecidableEq, Repr

/-- `to_extract_msg`: the bytes allocated for it and the `readed` ones. -/
structure Fragment where
  allocated : Nat
  readed : List UInt8
  deriving DecidableEq

/-- `readed` is zero whenever `to_extract_msg` is null, so it is kept with it. -/
structure MsgBuffer where
  buf : List UInt8
  fits : buf.length ≤ buffSize
  toExtractMsg : Option Fragment
  isTooSmall : Bool
  msgQueue : List Message

/-- What `_get_msg_type` answers: `UNDEFINED_MSG`, `INVALID_MSG` or a type. -/
inductive FoundType where
  | undefined
  | invalid
  | known (type : MsgType)

def getMsgType (data : List UInt8) : FoundType :=
  if isTooSmall data.length then .undefined
  else
    match getType data with
    | none => .invalid
    | some type => .known type

def hasStartMark (buf : List UInt8) : Bool := buf.head? = some startMark

/-- `none` is the answer -1. -/
def startMarkPos (buf : List UInt8) (start : Nat) : Option Nat :=
  ((buf.drop start).findIdx? (· = startMark)).map (start + ·)

/-- The position of the next mark; `free_pos` where there is none. -/
def nextStartPos (buf : List UInt8) (start : Nat) : Nat :=
  (startMarkPos buf start).getD buf.length

def syncBuf : Nat → List UInt8 → Except BufFault (List UInt8)
  | 0, _ => .error .running
  | turns + 1, buf =>
      let buf := buf.dropWhile (· ≠ startMark)
      if buf = [] then .ok []
      else
        match getMsgType buf with
        | .undefined => .ok buf
        | .invalid => syncBuf turns (buf.drop minSize)
        | .known _ => .ok buf

theorem syncBuf_length {turns : Nat} {buf result : List UInt8}
    (done : syncBuf turns buf = .ok result) : result.length ≤ buf.length := by
  induction turns generalizing buf with
  | zero => cases done
  | succ turns ih =>
      have shorter := (List.dropWhile_sublist (· ≠ startMark) (l := buf)).length_le
      simp only [syncBuf] at done
      split at done
      · cases done
        exact Nat.zero_le _
      · split at done
        · cases done
          exact shorter
        · have := ih done
          simp only [List.length_drop] at this
          omega
        · cases done
          exact shorter

namespace MsgBuffer

def init : MsgBuffer where
  buf := []
  fits := Nat.zero_le _
  toExtractMsg := none
  isTooSmall := true
  msgQueue := []

def setBuf (b : MsgBuffer) (buf : List UInt8) (shorter : buf.length ≤ b.buf.length) : MsgBuffer :=
  { b with buf := buf, fits := Nat.le_trans shorter b.fits }

def moveMsgToStart (b : MsgBuffer) : Except BufFault MsgBuffer :=
  match synced : syncBuf (b.buf.length + 1) b.buf with
  | .error fault => .error fault
  | .ok buf => .ok (b.setBuf buf (syncBuf_length synced))

def newReading : Nat → MsgBuffer → Except BufFault (Nat × MsgBuffer)
  | 0, _ => .error .running
  | turns + 1, b =>
      if b.buf = [] then .ok (0, b)
      else if hasStartMark b.buf = false then do newReading turns (← b.moveMsgToStart)
      else
        match getMsgType b.buf with
        | .undefined =>
            -- Fewer than five bytes: those up to the next mark become the fragment.
            let size := nextStartPos b.buf 1
            .ok (min size b.buf.length,
              { b with toExtractMsg := some ⟨size, []⟩, isTooSmall := true })
        | .invalid => do newReading turns (← b.moveMsgToStart)
        | .known type =>
            let size := getTypeDataSize type
            .ok (min size b.buf.length, { b with toExtractMsg := some ⟨size, []⟩ })

/-- `((Message*)to_extract_msg)->get_size()`: the type is a field of the object, at
offset 12, and the answer for a number that is no type is -1. -/
def objectSize (frag : Fragment) : Except BufFault Int :=
  if frag.readed.length < 16 then .error .unreceived
  else
    match MsgType.ofCode (value ((frag.readed.drop 12).take 4)) with
    | none => .ok (-1)
    | some type => .ok (getTypeSize type)

def finishingReading (b : MsgBuffer) (frag : Fragment) : Except BufFault (Int × MsgBuffer) :=
  if b.buf = [] then .ok (0, b)
  else
    let remains := nextStartPos b.buf 0
    if b.isTooSmall then
      -- Not even the type was there: the header is put together in a new allocation.
      let tmp := frag.readed ++ b.buf.take remains
      match getMsgType tmp with
      | .undefined => do
          .ok (0, ← moveMsgToStart { b with toExtractMsg := some ⟨tmp.length, tmp⟩ })
      | .invalid => do
          .ok (0, ← moveMsgToStart { b with toExtractMsg := none, isTooSmall := false })
      | .known type =>
          let msgSize := getTypeDataSize type
          -- The readed bytes are copied into the new object.
          if msgSize < frag.readed.length then .error .overrun
          else .ok (remains, { b with toExtractMsg := some ⟨msgSize, frag.readed⟩ })
    else do
      -- `size` counts the whole message, also where a part of it was read before.
      let size ← objectSize frag
      if size < frag.readed.length + remains then .ok (size, b) else .ok (remains, b)

def reading (b : MsgBuffer) : Except BufFault (Int × MsgBuffer) :=
  match b.toExtractMsg with
  | none => do
      let (toWrite, b) ← newReading (b.buf.length + 1) b
      .ok (toWrite, b)
  | some frag => b.finishingReading frag

def extractBytes (b : MsgBuffer) (toWrite : Int) : Except BufFault (Fragment × MsgBuffer) :=
  if toWrite < 0 ∨ b.buf.length < toWrite then .error .badCount
  else
    match b.toExtractMsg with
    | none => .error .overrun
    | some frag =>
        let readed := frag.readed ++ b.buf.take toWrite.toNat
        if frag.allocated < readed.length then .error .overrun
        else
          let frag := { frag with readed := readed }
          .ok (frag, { b.setBuf (b.buf.drop toWrite.toNat) (by simp) with toExtractMsg := some frag })

def gainLoop : Nat → MsgBuffer → Except BufFault MsgBuffer
  | 0, _ => .error .running
  | turns + 1, b =>
      if b.buf = [] then .ok b
      else do
        let (toWrite, b) ← b.reading
        if toWrite = 0 then gainLoop turns b
        else do
          let (frag, b) ← b.extractBytes toWrite
          match createInstance frag.readed with
          | some msg =>
              gainLoop turns { b with toExtractMsg := none, msgQueue := b.msgQueue ++ [msg] }
          | none => .ok b

def gainMsg (b : MsgBuffer) : Except BufFault (BuffError × MsgBuffer) := do
  let b := { b with isTooSmall := false }
  if b.toExtractMsg.isNone ∧ hasStartMark b.buf = false then
    let b ← b.moveMsgToStart
    if b.buf = [] then .ok (.emptyBuff, b)
    else .ok (.buffOk, ← gainLoop (b.buf.length + 1) b)
  else if b.toExtractMsg.isSome ∧ hasStartMark b.buf then
    -- A new message begins: what is left of the old one is dropped.
    .ok (.buffOk, ← gainLoop (b.buf.length + 1) { b with toExtractMsg := none })
  else .ok (.buffOk, ← gainLoop (b.buf.length + 1) b)

/-- The bytes that one `read` stores: no more than there is room for. -/
def receive (b : MsgBuffer) (chunk : List UInt8) : MsgBuffer :=
  { b with
    buf := b.buf ++ chunk.take (buffSize - b.buf.length)
    fits := by
      have := b.fits
      simp only [List.length_append, List.length_take]
      omega }

/-- What `read` may answer: -1, or bytes, none when the peer has closed. -/
def readMsg (fd : Int) (answer : Option (List UInt8)) (b : MsgBuffer) :
    Except BufFault (BuffError × MsgBuffer) :=
  if fd < 0 then .ok (.invalidFd, b)
  else if buffSize - b.buf.length = 0 then .ok (.fullBuff, b)
  else
    match answer with
    | none => .ok (.readErr, b)
    | some [] => .ok (.connBroken, b)
    | some chunk => do
        let (_, b) ← (b.receive chunk).gainMsg
        .ok (.buffOk, b)

def drain (b : MsgBuffer) : List Message × MsgBuffer :=
  (b.msgQueue, { b with msgQueue := [] })

end MsgBuffer

/-! The socket pair that joins the interface process and the client process. -/

structure Line where
  read : List Message
  /-- The messages that were written whole. -/
  wrote : List Message
  /-- All the bytes that were written, also those of a message that was cut. -/
  bytes : List UInt8
  /-- How often a message was not written whole. -/
  failed : Nat

namespace Line

def init : Line := ⟨[], [], [], 0⟩

/-- The loop of `_write_msg_for_server` and of `_write_msg_to_interface`, with the queue it
leaves. `results` is what `write` returns. A message that is not written whole goes to
the end. -/
def writeLoop : Line → List Message → List Int → Line × List Message
  | line, [], _ => (line, [])
  | line, msg :: queue, results =>
      let result := results.headD (-1)
      let line := { line with bytes := line.bytes ++ msg.getData.take result.toNat }
      if result = getTypeDataSize msg.type then
        writeLoop { line with wrote := line.wrote ++ [msg] } queue results.tail
      else ({ line with failed := line.failed + 1 }, queue ++ [msg])

end Line
end Battleship
