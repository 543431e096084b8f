import Battleship.Draining
import Battleship.SessionSafety

/-! What is accepted from the wire and what becomes of it when it is sent on. Accepted
bytes are those of a known type in its exact length, and encoding the message gives them
back up to the start mark, which is never looked at. -/
namespace Battleship

open LittleEndian

theorem bytes_readInt64 {data : List UInt8} (enough : 8 ≤ data.length) :
    bytes 8 (readInt64 data).toUInt64.toNat = data.take 8 := by
  have eight : (data.take 8).length = 8 := List.length_take_of_le enough
  have fits : value (data.take 8) < 2 ^ 64 := by simpa [eight] using value_lt (data.take 8)
  have same := bytes_value (data.take 8)
  rw [eight] at same
  rwa [readInt64, UInt64.toUInt64_toInt64, UInt64.toNat_ofNat', Nat.mod_eq_of_lt fits]

theorem bytes_readUInt32 {data : List UInt8} (enough : 4 ≤ data.length) :
    bytes 4 (readUInt32 data).toNat = data.take 4 := by
  have four : (data.take 4).length = 4 := List.length_take_of_le enough
  have fits : value (data.take 4) < 2 ^ 32 := by simpa [four] using value_lt (data.take 4)
  have same := bytes_value (data.take 4)
  rw [four] at same
  rwa [readUInt32, UInt32.toNat_ofNat', Nat.mod_eq_of_lt fits]

theorem boolByte_readBool {byte : UInt8} (plain : byte = 0 ∨ byte = 1) :
    boolByte (readBool [byte]) = [byte] := by
  rcases plain with rfl | rfl <;> rfl

theorem fieldBytes_readField {data : List UInt8} (enough : fldSz * fldSz ≤ data.length) :
    fieldBytes (readField data) = data.take (fldSz * fldSz) := by
  apply List.ext_getElem
  · rw [fieldBytes_length, List.length_take_of_le enough]
    rfl
  · intro k short _
    rw [fieldBytes_length] at short
    have inside : k < data.length := Nat.lt_of_lt_of_le short enough
    have place : fldSz * (k / fldSz) + k % fldSz = k := Nat.div_add_mod k fldSz
    simp only [fieldBytes, readField, List.getElem_ofFn, place, List.getElem_take]
    rw [List.getD_eq_getElem?_getD, List.getElem?_eq_getElem inside, Option.getD_some,
      UInt8.toUInt8_toInt8]

theorem TextBuf.val_ofBytes {data : List UInt8} (size : data.length = textSize) :
    (TextBuf.ofBytes data).val = data := by
  simp [TextBuf.ofBytes, ← size]

def flagOffset : MsgType → Option Nat
  | .gameField => some 100
  | .startTurn => some 8
  | .stopTurn => some 0
  | .serverConnStatus => some 0
  | _ => none

/-- The byte of the flag is one that `bool` has. -/
def PlainFlag (type : MsgType) (data : List UInt8) : Prop :=
  ∀ offset ∈ flagOffset type,
    data[headerSize + offset]? = some 0 ∨ data[headerSize + offset]? = some 1

theorem boolByte_last {data : List UInt8} {k : Nat} (size : data.length = k + 1)
    (plain : data[k]? = some 0 ∨ data[k]? = some 1) :
    boolByte (readBool (data.drop k)) = data.drop k := by
  have inside : k < data.length := by omega
  have last : data.drop k = [data[k]] := by
    rw [List.drop_eq_getElem_cons inside, List.drop_eq_nil_of_le (by omega)]
  rw [last]
  apply boolByte_readBool
  simpa [List.getElem?_eq_getElem inside] using plain

theorem bodyData_readBody {type : MsgType} {data : List UInt8} (size : data.length = bodySize type)
    (plain : ∀ offset ∈ flagOffset type, data[offset]? = some 0 ∨ data[offset]? = some 1) :
    bodyData (readBody type data) = data := by
  have whole {k : Nat} (size : data.length = k) : data.take k = data :=
    List.take_of_length_le size.le
  cases type with
  | gameState => exact (bytes_readUInt32 size.ge).trans (whole size)
  | gameField =>
      have field := @fieldBytes_readField data (by rw [size]; decide)
      have flag := boolByte_last size (plain 100 rfl)
      simp only [readBody, bodyData, field]
      exact (congrArg _ flag).trans (List.take_append_drop _ _)
  | startFieldReq => exact (bytes_readInt64 size.ge).trans (whole size)
  | startTurn =>
      have time := @bytes_readInt64 data (by rw [size]; decide)
      have flag := boolByte_last size (plain 8 rfl)
      simp only [readBody, bodyData, time, flag, List.take_append_drop]
  | stopTurn => exact boolByte_last (k := 0) size (plain 0 rfl)
  | gameMove =>
      have first := @bytes_readUInt32 data (by rw [size]; decide)
      have second := @bytes_readUInt32 (data.drop 4) (by simp [size, bodySize])
      have rest : (data.drop 4).take 4 = data.drop 4 :=
        List.take_of_length_le (by simp [size, bodySize])
      simp only [readBody, bodyData, UInt32.toUInt32_toInt32, first, second, rest,
        List.take_append_drop]
  | serverConnStatus => exact boolByte_last (k := 0) size (plain 0 rfl)
  | receipt => exact (bytes_readInt64 size.ge).trans (whole size)
  | info | error => exact TextBuf.val_ofBytes size
  | _ => exact (List.eq_nil_of_length_eq_zero size).symm

@[simp] theorem readBody_type (type : MsgType) (data : List UInt8) :
    (readBody type data).type = type := by
  cases type <;> rfl

theorem setHeaderData_read {type : MsgType} {data : List UInt8} (known : getType data = some type)
    (enough : headerSize ≤ data.length) :
    setHeaderData type (getId data) = startMark :: (data.drop 1).take 12 := by
  have thirteen : 13 ≤ data.length := enough
  have large : isTooSmall data.length = false := decide_eq_false (by unfold minSize; omega)
  rw [getType, large] at known
  have code : bytes 4 type.code = (data.drop 1).take 4 := by
    have four : ((data.drop 1).take 4).length = 4 := by
      simp only [List.length_take, List.length_drop]
      omega
    have same := bytes_value ((data.drop 1).take 4)
    rw [four] at same
    rw [MsgType.code_of_ofCode known]
    exact same
  have id : bytes 8 (getId data).toUInt64.toNat = (data.drop 5).take 8 := by
    apply bytes_readInt64
    simp only [List.length_drop, minSize]
    omega
  have split : (data.drop 1).take 12 = (data.drop 1).take 4 ++ (data.drop 5).take 8 := by
    rw [show 12 = 4 + 8 from rfl, List.take_add, List.drop_drop]
  rw [setHeaderData, code, id, split]

/-- What `create_instance` makes of the bytes, and `get_data` of that. -/
structure Reencodes (data : List UInt8) : Prop where
  accepted : (∃ msg, createInstance data = some msg) ↔
    ∃ type, getType data = some type ∧ data.length = getTypeDataSize type
  read : ∀ msg, createInstance data = some msg → getType data = some msg.type ∧ msg.id = getId data
  written : ∀ msg, createInstance data = some msg → PlainFlag msg.type data →
    msg.getData = startMark :: data.tail

theorem createInstance_eq {data : List UInt8} {msg : Message}
    (created : createInstance data = some msg) :
    getType data = some msg.type ∧ data.length = getTypeDataSize msg.type ∧
      msg = ⟨getId data, readBody msg.type (data.drop headerSize)⟩ := by
  obtain ⟨type, known, size⟩ := createInstance_isSome.mp ⟨msg, created⟩
  have large : isTooSmall data.length = false := by
    by_contra small
    simp [createInstance, small] at created
  rw [getType, large] at known
  obtain rfl : (⟨getId data, readBody type (data.drop headerSize)⟩ : Message) = msg := by
    unfold createInstance at created
    rw [large, show MsgType.ofCode (typeCode data) = some type from known] at created
    simpa only [Bool.false_eq_true, ↓reduceIte, if_pos size, Option.some.injEq] using created
  have same : Message.type ⟨getId data, readBody type (data.drop headerSize)⟩ = type :=
    readBody_type type _
  refine ⟨?_, same.symm ▸ size, by rw [same]⟩
  rw [getType, large, same]
  exact known

theorem reencodes (data : List UInt8) : Reencodes data := by
  refine ⟨createInstance_isSome, fun msg created => ?_, fun msg created plain => ?_⟩
  · obtain ⟨known, _, same⟩ := createInstance_eq created
    exact ⟨known, congrArg Message.id same⟩
  · obtain ⟨known, size, same⟩ := createInstance_eq created
    have enough : headerSize ≤ data.length := size ▸ getTypeDataSize_ge msg.type
    have body : bodyData (readBody msg.type (data.drop headerSize)) = data.drop headerSize := by
      apply bodyData_readBody
      · simp [size, getTypeDataSize]
      · intro offset at_
        rw [List.getElem?_drop]
        exact plain offset at_
    have id : msg.id = getId data := congrArg Message.id same
    have fields : msg.body = readBody msg.type (data.drop headerSize) := congrArg Message.body same
    rw [Message.getData, id, setHeaderData_read known enough, fields, body, List.cons_append]
    have rest : data.drop headerSize = (data.drop 1).drop 12 := by
      rw [List.drop_drop]
      rfl
    rw [rest, List.take_append_drop, List.drop_one]

namespace Server

/-- The slot does not point to a client that was deleted. -/
def SlotAlive (srv : Server) (s : SessionId) (i : PlayerIdx) : Prop :=
  ∀ client ∈ (srv.sessions s).players i, (srv.clients client).isSome

instance (srv : Server) (s : SessionId) (i : PlayerIdx) : Decidable (srv.SlotAlive s i) :=
  inferInstanceAs (Decidable (∀ _ ∈ _, _))

def queueCopy (srv : Server) (s : SessionId) (i : PlayerIdx) (msg : Message) : Server :=
  { srv with toSendMsg := fun client =>
      srv.toSendMsg client ++ if (srv.sessions s).players i = some client then [msg] else [] }

/-- One message for each slot of the session that the client has. -/
def queueCopies (srv : Server) (s : SessionId) (msg : Message) : Server :=
  (srv.queueCopy s 0 msg).queueCopy s 1 msg

theorem slotAlive_iff {srv : Server} {s : SessionId} {i : PlayerIdx} {client : ClientId}
    (seated : (srv.sessions s).players i = some client) :
    srv.SlotAlive s i ↔ srv.clients client ≠ none := by
  simp [SlotAlive, seated, Option.isSome_iff_ne_none]

theorem queueCopy_eq {srv : Server} {s : SessionId} {i : PlayerIdx} {client : ClientId}
    (seated : (srv.sessions s).players i = some client) (msg : Message) :
    srv.queueCopy s i msg = srv.push client msg := by
  unfold queueCopy push
  congr 1
  funext other
  by_cases same : other = client
  · subst same
    simp [seated]
  · simp [seated, Function.update_of_ne same, Ne.symm same]

theorem sendCopy_eq (srv : Server) (s : SessionId) (i : PlayerIdx) (msg : Message) :
    srv.sendCopy s i msg =
      if srv.SlotAlive s i then .ok (srv.queueCopy s i msg) else .error .deadClient := by
  cases seated : (srv.sessions s).players i with
  | none =>
      have alive : srv.SlotAlive s i := by simp [SlotAlive, seated]
      have same : srv.queueCopy s i msg = srv := by simp [queueCopy, seated]
      rw [if_pos alive, same, sendCopy, seated]
  | some client =>
      rw [sendCopy, seated, createInstance_getData, queueCopy_eq seated]
      by_cases alive : srv.clients client = none
      · rw [if_neg fun slot => (slotAlive_iff seated).mp slot alive]
        simp only [sendMsg, alive]
      · rw [if_pos ((slotAlive_iff seated).mpr alive)]
        exact sendMsg_alive alive msg

/-- `send_for_all` follows a deleted client, or queues an equal copy for each player. -/
theorem sendForAll_eq (srv : Server) (s : SessionId) (msg : Message) :
    srv.sendForAll s msg = if srv.SlotAlive s 0 ∧ srv.SlotAlive s 1 then
      .ok (srv.queueCopies s msg) else .error .deadClient := by
  unfold sendForAll
  rw [sendCopy_eq]
  by_cases first : srv.SlotAlive s 0
  · rw [if_pos first]
    have frame : (srv.queueCopy s 0 msg).SlotAlive s 1 ↔ srv.SlotAlive s 1 := Iff.rfl
    simp only [Bind.bind, Except.bind, sendCopy_eq, frame, first, true_and]
    rfl
  · rw [if_neg first, if_neg fun both => first both.1]
    rfl

end Server

/-- Accepted is what has a known type and its length, writing it gives the same bytes
behind the mark, and a broadcast queues for every player a message equal to the original. -/
theorem messages_reencoded :
    (∀ data, Reencodes data) ∧
      ∀ (srv : Server) (s : SessionId) (msg : Message),
        (srv.sendForAll s msg = if srv.SlotAlive s 0 ∧ srv.SlotAlive s 1 then
          .ok (srv.queueCopies s msg) else .error .deadClient) ∧
        (srv.Sound → srv.SlotAlive s 0 ∧ srv.SlotAlive s 1) := by
  refine ⟨reencodes, fun srv s msg => ⟨srv.sendForAll_eq s msg, fun sound => ?_⟩⟩
  have alive (i : PlayerIdx) : srv.SlotAlive s i := fun client seated =>
    Option.isSome_iff_ne_none.mpr (sound.seats.alive seated)
  exact ⟨alive 0, alive 1⟩

theorem messages_reencoded_opening :
    (⟨3, .stopTurn true⟩ : Message).getData =
        startMark :: (0 :: (⟨3, .stopTurn true⟩ : Message).getData.tail).tail ∧
      (Server.after opening).SlotAlive 0 0 ∧ (Server.after opening).SlotAlive 0 1 := by
  have plain : PlainFlag .stopTurn (0 :: (⟨3, .stopTurn true⟩ : Message).getData.tail) := by
    rintro _ ⟨⟩
    exact .inr (by decide +kernel)
  exact ⟨(messages_reencoded.1 _).written _ (by decide +kernel) plain,
    (messages_reencoded.2 _ 0 ⟨3, .stopTurn true⟩).2 opening_reachable.inv.sound⟩

end Battleship
