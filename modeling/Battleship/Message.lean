import Battleship.GameField
import Battleship.Library.LittleEndian

/-! The messages of core/message.cpp and their wire form: the start mark, four
bytes of type, eight bytes of id and then the fields of the class. Numbers are
little-endian, `int` has four bytes and `long long` and `time_t` have eight. -/
namespace Battleship

open LittleEndian

def textSize : Nat := 512

/-- The `char buf[BUF_SIZE]` of the two text messages. -/
abbrev TextBuf := { bytes : List UInt8 // bytes.length = textSize }

/-- Reads `BUF_SIZE` bytes; fewer are filled up with zeroes. -/
def TextBuf.ofBytes (data : List UInt8) : TextBuf :=
  ⟨(data ++ List.replicate textSize 0).take textSize, by simp⟩

/-- What the constructors of the text messages leave in `buf`: `strncpy` stops at
the terminator, and the last byte is overwritten with one. -/
def TextBuf.ofText (text : List UInt8) : TextBuf :=
  TextBuf.ofBytes ((text.takeWhile (· ≠ 0)).take (textSize - 1))

/-- The fields of the fourteen message classes. A `GameState` is kept as the four
bytes it occupies: the receiver does not check them. -/
inductive Body where
  | gameState (state : UInt32)
  | gameSessionReq
  | gameField (field : GameField) (isOwnField : Bool)
  | startFieldReq (endTime : Int64)
  | stopPreparation
  | startTurn (endTime : Int64) (isOwn : Bool)
  | stopTurn (isOwn : Bool)
  | gameMove (x y : Int32)
  | serverConnStatusReq
  | serverConnStatus (connected : Bool)
  | serverConnReq
  | receipt (reqMsgId : Int64)
  | info (buf : TextBuf)
  | error (buf : TextBuf)
  deriving DecidableEq

structure Message where
  id : Int64
  body : Body
  deriving DecidableEq

def startMark : UInt8 := 96
def noReqId : Int64 := -1
def noId : Int64 := 0
def startRegNum : Int64 := 1

def Body.type : Body → MsgType
  | .gameState _ => .gameState
  | .gameSessionReq => .gameSessionReq
  | .gameField _ _ => .gameField
  | .startFieldReq _ => .startFieldReq
  | .stopPreparation => .stopPreparation
  | .startTurn _ _ => .startTurn
  | .stopTurn _ => .stopTurn
  | .gameMove _ _ => .gameMove
  | .serverConnStatusReq => .serverConnStatusReq
  | .serverConnStatus _ => .serverConnStatus
  | .serverConnReq => .serverConnReq
  | .receipt _ => .receipt
  | .info _ => .info
  | .error _ => .error

abbrev Message.type (msg : Message) : MsgType := msg.body.type

/-- The constructors leave `id` at `NO_ID`, that of a receipt at `NO_REQ_ID`. -/
def Message.new (body : Body) : Message :=
  match body with
  | .receipt _ => ⟨noReqId, body⟩
  | _ => ⟨noId, body⟩

@[simp] theorem Message.new_body (body : Body) : (Message.new body).body = body := by
  cases body <;> rfl

/-! ### Sizes -/

/-- The bytes of the header: `Message::get_data_size`. -/
def headerSize : Nat := 13

def bodySize : MsgType → Nat
  | .gameState => 4
  | .gameSessionReq => 0
  | .gameField => 101
  | .startFieldReq => 8
  | .stopPreparation => 0
  | .startTurn => 9
  | .stopTurn => 1
  | .gameMove => 8
  | .serverConnStatusReq => 0
  | .serverConnStatus => 1
  | .serverConnReq => 0
  | .receipt => 8
  | .info => 512
  | .error => 512

/-- `get_type_data_size`: the bytes a message of the type has on the wire. -/
def getTypeDataSize (type : MsgType) : Nat := headerSize + bodySize type

/-- `get_type_size`: `sizeof` the class. The object starts with the table pointer,
so the mark is at offset 8, the type at 12, the id at 16 and the fields at 24. -/
def getTypeSize : MsgType → Nat
  | .gameState => 32
  | .gameSessionReq => 24
  | .gameField => 128
  | .startFieldReq => 32
  | .stopPreparation => 24
  | .startTurn => 40
  | .stopTurn => 32
  | .gameMove => 32
  | .serverConnStatusReq => 24
  | .serverConnStatus => 32
  | .serverConnReq => 24
  | .receipt => 32
  | .info => 536
  | .error => 536

def minSize : Nat := 5

def isTooSmall (size : Nat) : Bool := decide (size < minSize)

/-! ### Writing -/

def boolByte (flag : Bool) : List UInt8 := [if flag then 1 else 0]

def fieldBytes (field : GameField) : List UInt8 :=
  List.ofFn fun k : Fin (fldSz * fldSz) =>
    (field.field ⟨k.val / fldSz, Nat.div_lt_of_lt_mul k.isLt⟩
      ⟨k.val % fldSz, Nat.mod_lt _ (by decide)⟩).toUInt8

def setHeaderData (type : MsgType) (id : Int64) : List UInt8 :=
  startMark :: (bytes 4 type.code ++ bytes 8 id.toUInt64.toNat)

def bodyData : Body → List UInt8
  | .gameState state => bytes 4 state.toNat
  | .gameSessionReq => []
  | .gameField field isOwnField => fieldBytes field ++ boolByte isOwnField
  | .startFieldReq endTime => bytes 8 endTime.toUInt64.toNat
  | .stopPreparation => []
  | .startTurn endTime isOwn => bytes 8 endTime.toUInt64.toNat ++ boolByte isOwn
  | .stopTurn isOwn => boolByte isOwn
  | .gameMove x y => bytes 4 x.toUInt32.toNat ++ bytes 4 y.toUInt32.toNat
  | .serverConnStatusReq => []
  | .serverConnStatus connected => boolByte connected
  | .serverConnReq => []
  | .receipt reqMsgId => bytes 8 reqMsgId.toUInt64.toNat
  | .info buf => buf.val
  | .error buf => buf.val

def Message.getData (msg : Message) : List UInt8 :=
  setHeaderData msg.type msg.id ++ bodyData msg.body

/-! ### Reading. The size passed along with the data is the length of the list. -/

def typeCode (data : List UInt8) : Nat := value ((data.drop 1).take 4)

/-- `none` is `INVALID_MSG`. -/
def getType (data : List UInt8) : Option MsgType :=
  if isTooSmall data.length then none else MsgType.ofCode (typeCode data)

def readInt64 (data : List UInt8) : Int64 := (UInt64.ofNat (value (data.take 8))).toInt64
def readUInt32 (data : List UInt8) : UInt32 := UInt32.ofNat (value (data.take 4))
def readBool (data : List UInt8) : Bool := decide (data.getD 0 0 ≠ 0)

def readField (data : List UInt8) : GameField :=
  ⟨fun y x => (data.getD (fldSz * y.val + x.val) 0).toInt8⟩

def getId (data : List UInt8) : Int64 := readInt64 (data.drop minSize)

def readBody (type : MsgType) (data : List UInt8) : Body :=
  match type with
  | .gameState => .gameState (readUInt32 data)
  | .gameSessionReq => .gameSessionReq
  | .gameField => .gameField (readField data) (readBool (data.drop (fldSz * fldSz)))
  | .startFieldReq => .startFieldReq (readInt64 data)
  | .stopPreparation => .stopPreparation
  | .startTurn => .startTurn (readInt64 data) (readBool (data.drop 8))
  | .stopTurn => .stopTurn (readBool data)
  | .gameMove => .gameMove (readUInt32 data).toInt32 (readUInt32 (data.drop 4)).toInt32
  | .serverConnStatusReq => .serverConnStatusReq
  | .serverConnStatus => .serverConnStatus (readBool data)
  | .serverConnReq => .serverConnReq
  | .receipt => .receipt (readInt64 data)
  | .info => .info (TextBuf.ofBytes data)
  | .error => .error (TextBuf.ofBytes data)

/-- `create_instance` and the `create` of each class: the size has to be exactly
the wire size of the type. The mark is not looked at. -/
def createInstance (data : List UInt8) : Option Message :=
  if isTooSmall data.length then none
  else
    match MsgType.ofCode (typeCode data) with
    | none => none
    | some type =>
        if data.length = getTypeDataSize type then
          some ⟨getId data, readBody type (data.drop headerSize)⟩
        else none

/-! ### The codec is lossless -/

@[simp] theorem boolByte_length (flag : Bool) : (boolByte flag).length = 1 := rfl

@[simp] theorem fieldBytes_length (field : GameField) : (fieldBytes field).length = 100 :=
  List.length_ofFn

@[simp] theorem setHeaderData_length (type : MsgType) (id : Int64) :
    (setHeaderData type id).length = headerSize := by
  simp [setHeaderData, headerSize]

@[simp] theorem bodyData_length (body : Body) : (bodyData body).length = bodySize body.type := by
  cases body with
  | info buf | error buf => exact buf.property
  | _ => simp [bodyData, bodySize, Body.type]

@[simp] theorem Message.getData_length (msg : Message) :
    msg.getData.length = getTypeDataSize msg.type := by
  simp [Message.getData, getTypeDataSize]

theorem getTypeDataSize_ge (type : MsgType) : headerSize ≤ getTypeDataSize type := by
  simp [getTypeDataSize]

theorem typeCode_header (type : MsgType) (id : Int64) (rest : List UInt8) :
    typeCode (setHeaderData type id ++ rest) = type.code := by
  have range := type.code_range
  have four : (bytes 4 type.code).length = 4 := bytes_length 4 _
  simp only [typeCode, setHeaderData, List.cons_append, List.drop_succ_cons, List.drop_zero,
    List.append_assoc]
  rw [List.take_append_of_le_length (by omega), List.take_of_length_le (by omega),
    value_bytes_of_lt (by omega)]

theorem readInt64_bytes (number : Int64) (rest : List UInt8) :
    readInt64 (bytes 8 number.toUInt64.toNat ++ rest) = number := by
  have eight := bytes_length 8 number.toUInt64.toNat
  have fits : number.toUInt64.toNat < 256 ^ 8 := number.toUInt64.toNat_lt
  rw [readInt64, List.take_append_of_le_length (by omega), List.take_of_length_le (by omega),
    value_bytes_of_lt fits]
  simp

theorem readUInt32_bytes (number : UInt32) (rest : List UInt8) :
    readUInt32 (bytes 4 number.toNat ++ rest) = number := by
  have four := bytes_length 4 number.toNat
  have fits : number.toNat < 256 ^ 4 := number.toNat_lt
  rw [readUInt32, List.take_append_of_le_length (by omega), List.take_of_length_le (by omega),
    value_bytes_of_lt fits]
  simp

theorem readBool_byte (flag : Bool) (rest : List UInt8) :
    readBool (boolByte flag ++ rest) = flag := by
  cases flag <;> simp [readBool, boolByte]

theorem readField_bytes (field : GameField) (rest : List UInt8) :
    readField (fieldBytes field ++ rest) = field := by
  ext y x
  have row := y.isLt
  have column := x.isLt
  have inside : fldSz * y.val + x.val < fldSz * fldSz := by
    have := Nat.mul_le_mul_left fldSz (show y.val + 1 ≤ fldSz from row)
    simp only [Nat.mul_add] at this
    omega
  have short : fldSz * y.val + x.val < (fieldBytes field).length := by
    rw [fieldBytes_length]
    exact inside
  have line : (fldSz * y.val + x.val) / fldSz = y.val := by
    rw [Nat.mul_add_div (by decide), Nat.div_eq_of_lt column, Nat.add_zero]
  have offset : (fldSz * y.val + x.val) % fldSz = x.val := by
    rw [Nat.mul_add_mod, Nat.mod_eq_of_lt column]
  simp only [readField, List.getD_eq_getElem?_getD, List.getElem?_append_left short]
  simp only [fieldBytes, List.getElem?_ofFn, inside, ↓reduceDIte, Option.getD_some,
    Int8.toInt8_toUInt8, line, offset]

theorem TextBuf.ofBytes_val (buf : TextBuf) : TextBuf.ofBytes buf.val = buf := by
  apply Subtype.ext
  simp [TextBuf.ofBytes, List.take_append_of_le_length, buf.property.ge, buf.property.le]

theorem readBody_data (body : Body) : readBody body.type (bodyData body) = body := by
  cases body with
  | gameState state => simpa [readBody, bodyData, Body.type] using readUInt32_bytes state []
  | gameField field isOwnField =>
      have hundred : (fieldBytes field).length = fldSz * fldSz := fieldBytes_length field
      have flag := readBool_byte isOwnField []
      simp only [readBody, bodyData, Body.type, readField_bytes, List.drop_left' hundred]
      rw [← List.append_nil (boolByte isOwnField), flag]
  | startFieldReq endTime => simpa [readBody, bodyData, Body.type] using readInt64_bytes endTime []
  | startTurn endTime isOwn =>
      have flag := readBool_byte isOwn []
      simp only [readBody, bodyData, Body.type, readInt64_bytes,
        List.drop_left' (bytes_length 8 _)]
      rw [← List.append_nil (boolByte isOwn), flag]
  | stopTurn isOwn => simpa [readBody, bodyData, Body.type] using readBool_byte isOwn []
  | gameMove x y =>
      have second := readUInt32_bytes y.toUInt32 []
      simp only [readBody, bodyData, Body.type, readUInt32_bytes,
        List.drop_left' (bytes_length 4 _)]
      rw [← List.append_nil (bytes 4 y.toUInt32.toNat), second]
      simp
  | serverConnStatus connected =>
      simpa [readBody, bodyData, Body.type] using readBool_byte connected []
  | receipt reqMsgId => simpa [readBody, bodyData, Body.type] using readInt64_bytes reqMsgId []
  | info buf | error buf => simp [readBody, bodyData, Body.type, TextBuf.ofBytes_val]
  | _ => rfl

theorem createInstance_getData (msg : Message) : createInstance msg.getData = some msg := by
  have size := msg.getData_length
  have header := getTypeDataSize_ge msg.type
  have large : isTooSmall msg.getData.length = false := by
    simp only [isTooSmall, minSize, headerSize] at *
    simp
    omega
  have code : typeCode msg.getData = msg.type.code := typeCode_header _ _ _
  have id : getId msg.getData = msg.id := by
    have five : (startMark :: bytes 4 msg.type.code).length = minSize := by
      simp [minSize]
    rw [getId, Message.getData, setHeaderData, ← List.cons_append, List.append_assoc,
      List.drop_left' five, readInt64_bytes]
  have body : msg.getData.drop headerSize = bodyData msg.body :=
    List.drop_left' (setHeaderData_length _ _)
  unfold createInstance
  simp only [large, Bool.false_eq_true, ↓reduceIte, code, MsgType.ofCode_code, id, body,
    readBody_data]
  rw [if_pos size]

theorem getData_append_inj {first second : Message} {left right : List UInt8}
    (same : first.getData ++ left = second.getData ++ right) : first = second ∧ left = right := by
  have code (msg : Message) (rest : List UInt8) :
      typeCode (msg.getData ++ rest) = msg.type.code := by
    rw [Message.getData, List.append_assoc]
    exact typeCode_header _ _ _
  have types : first.type = second.type := by
    have codes : first.type.code = second.type.code := by rw [← code first left, same, code]
    have known := MsgType.ofCode_code first.type
    rw [codes, MsgType.ofCode_code] at known
    exact (Option.some.inj known).symm
  have sizes : first.getData.length = second.getData.length := by
    rw [first.getData_length, second.getData_length, types]
  obtain ⟨bytes, rest⟩ := List.append_inj same sizes
  have decoded := createInstance_getData first
  rw [bytes, createInstance_getData] at decoded
  exact ⟨(Option.some.inj decoded).symm, rest⟩

/-- The codec is lossless and self-delimiting. -/
theorem codec_self_delimiting :
    (∀ (first second : Message) (left right : List UInt8),
      first.getData ++ left = second.getData ++ right → first = second ∧ left = right) ∧
    ∀ msg : Message, msg.getData.length = getTypeDataSize msg.type ∧
      createInstance msg.getData = some msg :=
  ⟨fun _ _ _ _ same => getData_append_inj same,
    fun msg => ⟨msg.getData_length, createInstance_getData msg⟩⟩

/-- Two writings of the same bytes: the mark and type of a receipt, then the rest. -/
theorem codec_self_delimiting_receipt :
    (Message.mk 96 (.receipt 96)).getData ++ [96] =
        (setHeaderData .receipt 96 ++ LittleEndian.bytes 8 96) ++ [96] ∧
      (Message.mk 96 (.receipt 96) = Message.mk 96 (.receipt 96) ∧ [(96 : UInt8)] = [96]) :=
  ⟨by decide, codec_self_delimiting.1 (Message.mk 96 (.receipt 96)) (Message.mk 96 (.receipt 96))
    [96] [96] rfl⟩

end Battleship
