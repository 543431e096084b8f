import Battleship.Reencoding
import Mathlib.Data.List.TakeWhile

/-! The two text messages as C strings. `get_error` and `get_info` return `buf`, and who
prints it reads up to the first zero byte. The constructors put one at the end of `buf`;
`create` copies what the peer has sent. -/
namespace Battleship

/-- The string that starts at `buf`; none where it runs past the buffer. -/
def TextBuf.string (buf : TextBuf) : Option (List UInt8) :=
  if 0 ∈ buf.val then some (buf.val.takeWhile (· ≠ 0)) else none

def Body.textBuf : Body → Option TextBuf
  | .info buf => some buf
  | .error buf => some buf
  | _ => none

/-- `get_error` and `get_info`. -/
def Message.string (msg : Message) : Option (List UInt8) := msg.body.textBuf.bind TextBuf.string

/-- How a text message comes to be: by a constructor from a text, or from bytes of a peer. -/
inductive TextSource where
  | errorMsg (text : List UInt8)
  | infoMsg (text : List UInt8)
  | received (data : List UInt8)
  deriving DecidableEq

namespace TextSource

def create : TextSource → Option Message
  | .errorMsg text => some (Message.new (.error (TextBuf.ofText text)))
  | .infoMsg text => some (Message.new (.info (TextBuf.ofText text)))
  | .received data => createInstance data

/-- A peer has to send the zero byte itself. -/
def Terminated : TextSource → Prop
  | .errorMsg _ => True
  | .infoMsg _ => True
  | .received data => 0 ∈ data.drop headerSize

instance : DecidablePred Terminated
  | .errorMsg _ => inferInstanceAs (Decidable True)
  | .infoMsg _ => inferInstanceAs (Decidable True)
  | .received _ => inferInstanceAs (Decidable (0 ∈ _))

end TextSource

/-- The string ends inside the buffer, and the message that is decoded from the encoding
has the same. -/
structure Message.TextEnds (msg : Message) (buf : TextBuf) : Prop where
  terminated : 0 ∈ buf.val
  string : msg.string = some (buf.val.takeWhile (· ≠ 0))
  kept : (createInstance msg.getData).bind Message.string = msg.string

theorem TextBuf.val_ofText (text : List UInt8) :
    ∃ zeroes, (TextBuf.ofText text).val =
      (text.takeWhile (· ≠ 0)).take (textSize - 1) ++ 0 :: zeroes := by
  have short : ((text.takeWhile (· ≠ 0)).take (textSize - 1)).length < textSize :=
    lt_of_le_of_lt (List.length_take_le _ _) (by decide)
  unfold TextBuf.ofText TextBuf.ofBytes
  generalize (text.takeWhile (· ≠ 0)).take (textSize - 1) = copied at short
  -- what `strncpy` does not fill stays zero
  obtain ⟨left, rest⟩ := Nat.exists_eq_add_of_lt short
  refine ⟨List.replicate left 0, ?_⟩
  dsimp only
  rw [List.take_append, List.take_of_length_le short.le, List.take_replicate]
  have zeroes : min (textSize - copied.length) textSize = left + 1 := by omega
  rw [zeroes, List.replicate_succ]

theorem Message.string_eq {msg : Message} {buf : TextBuf} (text : msg.body.textBuf = some buf) :
    msg.string = buf.string := by
  rw [Message.string, text, Option.bind_some]

/-- A zero byte in the buffer is all that is needed: the codec is lossless. -/
theorem Message.textEnds_iff {msg : Message} {buf : TextBuf} (text : msg.body.textBuf = some buf) :
    msg.TextEnds buf ↔ 0 ∈ buf.val := by
  constructor
  · exact fun ends => ends.terminated
  · intro terminated
    constructor
    · exact terminated
    · rw [Message.string_eq text]
      exact if_pos terminated
    · rw [createInstance_getData, Option.bind_some]

theorem createInstance_textBuf {data : List UInt8} {msg : Message} {buf : TextBuf}
    (created : createInstance data = some msg) (text : msg.body.textBuf = some buf) :
    buf.val = data.drop headerSize := by
  obtain ⟨_, size, same⟩ := createInstance_eq created
  have fields : msg.body = readBody msg.type (data.drop headerSize) := congrArg Message.body same
  have rest : (data.drop headerSize).length = bodySize msg.type := by
    rw [List.length_drop, size, getTypeDataSize]
    omega
  rw [fields] at text
  cases type : msg.type with
  | info | error =>
      rw [type] at text rest
      obtain rfl := Option.some.inj text
      exact TextBuf.val_ofBytes rest
  | _ =>
      rw [type] at text
      contradiction

/-- A text message ends exactly when it was built by its constructor, or the peer has sent
a zero byte among its text. -/
theorem text_ends_iff (source : TextSource) (msg : Message) (buf : TextBuf)
    (created : source.create = some msg) (text : msg.body.textBuf = some buf) :
    msg.TextEnds buf ↔ source.Terminated := by
  rw [Message.textEnds_iff text]
  cases source with
  | errorMsg content | infoMsg content =>
      obtain rfl := Option.some.inj created
      rw [Message.new_body] at text
      obtain rfl := Option.some.inj text
      obtain ⟨zeroes, written⟩ := TextBuf.val_ofText content
      rw [written]
      exact iff_of_true (List.mem_append_right _ List.mem_cons_self) trivial
  | received data =>
      rw [createInstance_textBuf created text]
      rfl

/-- 512 letters and no zero byte. -/
def unterminated : TextBuf := ⟨List.replicate textSize 65, List.length_replicate⟩

theorem zero_notMem_unterminated : 0 ∉ unterminated.val := by
  intro zero
  have letter : (0 : UInt8) = 65 := List.eq_of_mem_replicate zero
  exact absurd letter (by decide)

theorem createInstance_unterminated :
    createInstance (setHeaderData .error 1 ++ unterminated.val) =
      some ⟨1, .error unterminated⟩ :=
  createInstance_getData ⟨1, .error unterminated⟩

theorem text_ends_iff_letters :
    ¬(⟨1, .error unterminated⟩ : Message).TextEnds unterminated ∧
      (Message.new (.info (TextBuf.ofText [104, 105]))).TextEnds (TextBuf.ofText [104, 105]) := by
  constructor
  · intro ends
    have terminated := (text_ends_iff (.received (setHeaderData .error 1 ++ unterminated.val))
      _ unterminated createInstance_unterminated rfl).mp ends
    change 0 ∈ (setHeaderData .error 1 ++ unterminated.val).drop headerSize at terminated
    rw [List.drop_left' (setHeaderData_length _ _)] at terminated
    exact zero_notMem_unterminated terminated
  · exact (text_ends_iff (.infoMsg [104, 105]) _ _ rfl rfl).mpr trivial

/-- Not every text message ends: an `ErrorMsg` from a peer with 512 letters. -/
theorem text_unterminated :
    createInstance (setHeaderData .error 1 ++ unterminated.val) =
        some ⟨1, .error unterminated⟩ ∧
      0 ∉ unterminated.val ∧ (⟨1, .error unterminated⟩ : Message).string = none ∧
      ¬∀ (source : TextSource) (msg : Message) (buf : TextBuf), source.create = some msg →
        msg.body.textBuf = some buf → msg.TextEnds buf := by
  refine ⟨createInstance_unterminated, zero_notMem_unterminated, ?_, ?_⟩
  · rw [Message.string_eq rfl]
    exact if_neg zero_notMem_unterminated
  · intro always
    have ends := always (.received (setHeaderData .error 1 ++ unterminated.val)) _ unterminated
      createInstance_unterminated rfl
    exact zero_notMem_unterminated ends.terminated

end Battleship
