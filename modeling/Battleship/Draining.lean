import Battleship.MsgBuffer

/-! What `_gain_msg` makes of the bytes of a buffer with no pending fragment. The
contents are brought to the next believable header, the message that begins there
is taken out, and so on; each loop is shown to come to its end. -/
namespace Battleship

open Runs LittleEndian

theorem hasStartMark_iff {buf : List UInt8} :
    hasStartMark buf = true ↔ ∃ rest, buf = startMark :: rest := by
  cases buf with
  | nil => simp [hasStartMark]
  | cons first rest => simp [hasStartMark]

/-- The contents from the first mark on that is followed by a valid type or by too
few bytes to tell; an invalid header is skipped with its type. -/
def resync (buf : List UInt8) : List UInt8 :=
  match _found : buf.dropWhile (· ≠ startMark) with
  | [] => []
  | first :: rest =>
      match getMsgType (first :: rest) with
      | .invalid => resync ((first :: rest).drop minSize)
      | .undefined | .known _ => first :: rest
termination_by buf.length
decreasing_by
  have shorter := (List.dropWhile_sublist (· ≠ startMark) (l := buf)).length_le
  simp only [_found, List.length_cons, List.length_drop] at shorter ⊢
  unfold minSize
  omega

theorem resync_none {buf : List UInt8} (nothing : buf.dropWhile (· ≠ startMark) = []) :
    resync buf = [] := by
  rw [resync]
  split
  · rfl
  · next found => exact absurd (nothing.symm.trans found) (List.cons_ne_nil _ _).symm

theorem resync_invalid {buf : List UInt8} (found : buf.dropWhile (· ≠ startMark) ≠ [])
    (invalid : getMsgType (buf.dropWhile (· ≠ startMark)) = .invalid) :
    resync buf = resync ((buf.dropWhile (· ≠ startMark)).drop minSize) := by
  rw [resync]
  split
  · next nothing => exact absurd nothing found
  · next first rest here =>
      rw [here] at invalid ⊢
      simp only [invalid]

theorem resync_here {buf : List UInt8} (found : buf.dropWhile (· ≠ startMark) ≠ [])
    (valid : getMsgType (buf.dropWhile (· ≠ startMark)) ≠ .invalid) :
    resync buf = buf.dropWhile (· ≠ startMark) := by
  rw [resync]
  split
  · next nothing => exact absurd nothing found
  · next first rest here =>
      rw [here] at valid ⊢
      split
      · next invalid => exact absurd invalid valid
      · rfl
      · rfl

theorem syncBuf_eq {turns : Nat} {buf : List UInt8} (enough : buf.length < turns) :
    syncBuf turns buf = .ok (resync buf) := by
  induction turns generalizing buf with
  | zero => omega
  | succ turns ih =>
      have shorter := (List.dropWhile_sublist (· ≠ startMark) (l := buf)).length_le
      simp only [syncBuf]
      by_cases nothing : buf.dropWhile (· ≠ startMark) = []
      · rw [if_pos nothing, resync_none nothing]
      · have something : 0 < (buf.dropWhile (· ≠ startMark)).length := List.length_pos_iff.mpr nothing
        rw [if_neg nothing]
        split
        · next undefined => rw [resync_here nothing (by rw [undefined]; exact FoundType.noConfusion)]
        · next invalid =>
            rw [resync_invalid nothing invalid]
            apply ih
            simp only [List.length_drop, minSize]
            omega
        · next type known => rw [resync_here nothing (by rw [known]; exact FoundType.noConfusion)]

theorem resync_length (buf : List UInt8) : (resync buf).length ≤ buf.length :=
  syncBuf_length (syncBuf_eq (Nat.lt_succ_self _))

theorem resync_suffix (buf : List UInt8) : resync buf <:+ buf := by
  induction len : buf.length using Nat.strong_induction_on generalizing buf with
  | _ size ih =>
      have tail := List.dropWhile_suffix (l := buf) (· ≠ startMark)
      by_cases nothing : buf.dropWhile (· ≠ startMark) = []
      · rw [resync_none nothing]
        exact List.nil_suffix
      · by_cases invalid : getMsgType (buf.dropWhile (· ≠ startMark)) = .invalid
        · have something : 0 < (buf.dropWhile (· ≠ startMark)).length := List.length_pos_iff.mpr nothing
          have shorter := tail.length_le
          rw [resync_invalid nothing invalid]
          have skipped := ih ((buf.dropWhile (· ≠ startMark)).drop minSize).length
            (by simp only [List.length_drop, minSize]; omega) _ rfl
          exact skipped.trans ((List.drop_suffix _ _).trans tail)
        · rw [resync_here nothing invalid]
          exact tail

/-- Where the search ends there is a mark, and no invalid type behind it. -/
theorem resync_header {buf : List UInt8} (something : resync buf ≠ []) :
    hasStartMark (resync buf) = true ∧ getMsgType (resync buf) ≠ .invalid := by
  induction len : buf.length using Nat.strong_induction_on generalizing buf with
  | _ size ih =>
      by_cases nothing : buf.dropWhile (· ≠ startMark) = []
      · exact absurd (resync_none nothing) something
      · by_cases invalid : getMsgType (buf.dropWhile (· ≠ startMark)) = .invalid
        · have shorter := (List.dropWhile_sublist (· ≠ startMark) (l := buf)).length_le
          have found : 0 < (buf.dropWhile (· ≠ startMark)).length := List.length_pos_iff.mpr nothing
          rw [resync_invalid nothing invalid] at something ⊢
          exact ih _ (by simp only [List.length_drop, minSize]; omega) something rfl
        · rw [resync_here nothing invalid]
          refine ⟨?_, invalid⟩
          have mark := List.head_dropWhile_not (· ≠ startMark) nothing
          rw [hasStartMark, List.head?_eq_some_head nothing]
          simpa using mark

theorem dropWhile_of_mark {buf : List UInt8} (mark : hasStartMark buf = true) :
    buf.dropWhile (· ≠ startMark) = buf := by
  obtain ⟨rest, rfl⟩ := hasStartMark_iff.mp mark
  simp

theorem resync_of_header {buf : List UInt8} (mark : hasStartMark buf = true)
    (valid : getMsgType buf ≠ .invalid) : resync buf = buf := by
  have here := dropWhile_of_mark mark
  have something : buf ≠ [] := by
    obtain ⟨rest, rfl⟩ := hasStartMark_iff.mp mark
    exact List.cons_ne_nil _ _
  rw [resync_here (by rwa [here]) (by rwa [here]), here]

theorem resync_resync (buf : List UInt8) : resync (resync buf) = resync buf := by
  by_cases nothing : resync buf = []
  · rw [nothing]
    exact resync_none rfl
  · exact resync_of_header (resync_header nothing).1 (resync_header nothing).2

theorem resync_noise {noise : List UInt8} (clean : startMark ∉ noise) (buf : List UInt8) :
    resync (noise ++ buf) = resync buf := by
  have skipped : (noise ++ buf).dropWhile (· ≠ startMark) = buf.dropWhile (· ≠ startMark) :=
    List.dropWhile_append_of_pos fun byte member => by
      simpa using fun same : byte = startMark => clean (same ▸ member)
  by_cases nothing : buf.dropWhile (· ≠ startMark) = []
  · rw [resync_none nothing, resync_none (skipped.trans nothing)]
  · by_cases invalid : getMsgType (buf.dropWhile (· ≠ startMark)) = .invalid
    · rw [resync_invalid nothing invalid,
        resync_invalid (by rwa [skipped]) (by rwa [skipped]), skipped]
    · rw [resync_here nothing invalid, resync_here (by rwa [skipped]) (by rwa [skipped]), skipped]

theorem getMsgType_undefined {data : List UInt8} :
    getMsgType data = .undefined ↔ data.length < minSize := by
  simp only [getMsgType, isTooSmall, decide_eq_true_eq]
  by_cases short : data.length < minSize
  · simp [short]
  · simp only [short, ↓reduceIte, iff_false]
    split <;> exact FoundType.noConfusion

theorem getMsgType_known {data : List UInt8} {type : MsgType} :
    getMsgType data = .known type ↔ getType data = some type := by
  simp only [getMsgType, getType]
  by_cases short : isTooSmall data.length
  · simp [short]
  · simp only [short, Bool.false_eq_true, ↓reduceIte]
    split
    · next unknown => simp [unknown]
    · next found known => simp [known]

theorem nextStartPos_le {buf : List UInt8} {start : Nat} : nextStartPos buf start ≤ buf.length := by
  unfold nextStartPos startMarkPos
  cases found : (buf.drop start).findIdx? (· = startMark) with
  | none => exact Nat.le_refl _
  | some idx =>
      have inside := (List.findIdx?_eq_some_iff_findIdx_eq.mp found).1
      simp only [List.length_drop] at inside
      simp only [Option.map_some, Option.getD_some]
      omega

theorem nextStartPos_ge {buf : List UInt8} {start : Nat} (within : start ≤ buf.length) :
    start ≤ nextStartPos buf start := by
  unfold nextStartPos startMarkPos
  cases (buf.drop start).findIdx? (· = startMark) with
  | none => exact within
  | some idx => exact Nat.le_add_right _ _

namespace MsgBuffer

@[simp] theorem setBuf_buf (b : MsgBuffer) (buf : List UInt8) (shorter) :
    (b.setBuf buf shorter).buf = buf := rfl

@[simp] theorem setBuf_toExtractMsg (b : MsgBuffer) (buf : List UInt8) (shorter) :
    (b.setBuf buf shorter).toExtractMsg = b.toExtractMsg := rfl

@[simp] theorem setBuf_msgQueue (b : MsgBuffer) (buf : List UInt8) (shorter) :
    (b.setBuf buf shorter).msgQueue = b.msgQueue := rfl

theorem moveMsgToStart_eq (b : MsgBuffer) :
    b.moveMsgToStart = .ok (b.setBuf (resync b.buf) (resync_length b.buf)) := by
  have synced := syncBuf_eq (Nat.lt_succ_self b.buf.length)
  unfold moveMsgToStart
  split
  · next failed => rw [synced] at failed; cases failed
  · next buf done =>
      rw [synced] at done
      cases done
      rfl

/-- The state that `_new_reading` looks at in its last turn. -/
def synced (b : MsgBuffer) : MsgBuffer := b.setBuf (resync b.buf) (resync_length b.buf)

@[simp] theorem synced_buf (b : MsgBuffer) : b.synced.buf = resync b.buf := rfl
@[simp] theorem synced_toExtractMsg (b : MsgBuffer) :
    b.synced.toExtractMsg = b.toExtractMsg := rfl
@[simp] theorem synced_msgQueue (b : MsgBuffer) : b.synced.msgQueue = b.msgQueue := rfl

theorem synced_of_resync {b : MsgBuffer} (here : resync b.buf = b.buf) : b.synced = b := by
  cases b
  simp only [synced, setBuf, MsgBuffer.mk.injEq, and_true] at here ⊢
  exact here

theorem newReading_empty {turns : Nat} {b : MsgBuffer} (enough : 0 < turns) (empty : b.buf = []) :
    newReading turns b = .ok (0, b) := by
  obtain ⟨turns, rfl⟩ := Nat.exists_eq_add_of_lt enough
  rw [Nat.zero_add, newReading, if_pos empty]

theorem newReading_undefined (turns : Nat) {b : MsgBuffer} (enough : 0 < turns)
    (mark : hasStartMark b.buf = true) (undefined : getMsgType b.buf = .undefined) :
    newReading turns b = .ok (nextStartPos b.buf 1,
      { b with toExtractMsg := some ⟨nextStartPos b.buf 1, []⟩, isTooSmall := true }) := by
  obtain ⟨turns, rfl⟩ := Nat.exists_eq_add_of_lt enough
  obtain ⟨rest, cons⟩ := hasStartMark_iff.mp mark
  rw [Nat.zero_add, newReading, if_neg (by simp [cons]), if_neg (by simp [mark]), undefined]
  simp only [Nat.min_eq_left nextStartPos_le]

theorem newReading_known (turns : Nat) {b : MsgBuffer} {type : MsgType} (enough : 0 < turns)
    (mark : hasStartMark b.buf = true) (known : getMsgType b.buf = .known type) :
    newReading turns b = .ok (min (getTypeDataSize type) b.buf.length,
      { b with toExtractMsg := some ⟨getTypeDataSize type, []⟩ }) := by
  obtain ⟨turns, rfl⟩ := Nat.exists_eq_add_of_lt enough
  obtain ⟨rest, cons⟩ := hasStartMark_iff.mp mark
  rw [Nat.zero_add, newReading, if_neg (by simp [cons]), if_neg (by simp [mark]), known]

theorem newReading_synced {turns : Nat} {b : MsgBuffer} (enough : b.buf.length < turns) :
    newReading turns b = newReading 1 b.synced := by
  obtain ⟨turns, rfl⟩ := Nat.exists_eq_add_of_lt enough
  by_cases empty : b.buf = []
  · have here : b.synced = b := synced_of_resync (by rw [empty]; exact resync_none rfl)
    rw [here, newReading_empty (Nat.succ_pos _) empty, newReading_empty (by decide) empty]
  -- Once the buffer begins with a header the loop ends in its first turn.
  have turn : newReading (b.buf.length + turns) b.synced = newReading 1 b.synced := by
    have some_left : 0 < b.buf.length + turns :=
      Nat.add_pos_left (List.length_pos_iff.mpr empty) _
    by_cases nothing : b.synced.buf = []
    · rw [newReading_empty some_left nothing, newReading_empty (by decide) nothing]
    · obtain ⟨mark, valid⟩ := resync_header nothing
      cases found : getMsgType b.synced.buf with
      | undefined =>
          rw [newReading_undefined _ some_left mark found,
            newReading_undefined _ (by decide) mark found]
      | invalid => exact absurd found valid
      | known type =>
          rw [newReading_known _ some_left mark found, newReading_known _ (by decide) mark found]
  by_cases mark : hasStartMark b.buf = true
  · cases found : getMsgType b.buf with
    | invalid =>
        -- A mark with no type behind it is skipped, and so is the next, as `resync` does.
        rw [newReading, if_neg empty, if_neg (by simp [mark]), found]
        simp only [moveMsgToStart_eq]
        exact turn
    | undefined =>
        have here : b.synced = b :=
          synced_of_resync (resync_of_header mark (by rw [found]; exact FoundType.noConfusion))
        rw [here, newReading_undefined _ (Nat.succ_pos _) mark found,
          newReading_undefined _ (by decide) mark found]
    | known type =>
        have here : b.synced = b :=
          synced_of_resync (resync_of_header mark (by rw [found]; exact FoundType.noConfusion))
        rw [here, newReading_known _ (Nat.succ_pos _) mark found,
          newReading_known _ (by decide) mark found]
  · rw [newReading, if_neg empty, if_pos (by simpa using mark)]
    simp only [moveMsgToStart_eq]
    exact turn

end MsgBuffer

/-- What becomes of contents with no pending fragment: the messages taken out, the
fragment that is left over and the bytes that stay. -/
inductive Drains : List UInt8 → List Message → Option Fragment → List UInt8 → Prop where
  | done {buf : List UInt8} (nothing : resync buf = []) : Drains buf [] none []
  | cut {buf rest : List UInt8} (found : resync buf = rest) (something : rest ≠ [])
      (short : rest.length < minSize) :
      Drains buf []
        (some ⟨nextStartPos rest 1, rest.take (nextStartPos rest 1)⟩)
        (rest.drop (nextStartPos rest 1))
  | part {buf rest : List UInt8} {type : MsgType} (found : resync buf = rest)
      (known : getType rest = some type) (short : rest.length < getTypeDataSize type) :
      Drains buf [] (some ⟨getTypeDataSize type, rest⟩) []
  | whole {buf rest : List UInt8} {type : MsgType} {msg : Message} {msgs : List Message}
      {frag : Option Fragment} {left : List UInt8} (found : resync buf = rest)
      (known : getType rest = some type) (long : getTypeDataSize type ≤ rest.length)
      (created : createInstance (rest.take (getTypeDataSize type)) = some msg)
      (more : Drains (rest.drop (getTypeDataSize type)) msgs frag left) :
      Drains buf (msg :: msgs) frag left

theorem Drains.of_resync {buf buf' : List UInt8} {msgs : List Message} {frag : Option Fragment}
    {left : List UInt8} (same : resync buf = resync buf') (drains : Drains buf' msgs frag left) :
    Drains buf msgs frag left := by
  cases drains with
  | done nothing => exact .done (same.trans nothing)
  | cut found something short => exact .cut (same.trans found) something short
  | part found known short => exact .part (same.trans found) known short
  | whole found known long created more => exact .whole (same.trans found) known long created more

theorem getType_take {buf : List UInt8} {size : Nat} (enough : minSize ≤ size)
    (long : size ≤ buf.length) : getType (buf.take size) = getType buf := by
  have five : minSize = 5 := rfl
  have code : typeCode (buf.take size) = typeCode buf := by
    simp only [typeCode, List.drop_take, List.take_take]
    rw [Nat.min_eq_left (by omega)]
  simp only [getType, code, isTooSmall, List.length_take]
  rw [Nat.min_eq_left long]
  have large : ¬ buf.length < minSize := by omega
  simp only [large, Nat.not_lt.mpr enough]

theorem minSize_lt_getTypeDataSize (type : MsgType) : minSize < getTypeDataSize type :=
  Nat.lt_of_lt_of_le (by decide) (getTypeDataSize_ge type)

/-- Bytes are a message exactly when they have the size of their type. -/
theorem createInstance_isSome {data : List UInt8} :
    (∃ msg, createInstance data = some msg) ↔
      ∃ type, getType data = some type ∧ data.length = getTypeDataSize type := by
  unfold createInstance getType
  by_cases short : isTooSmall data.length
  · simp [short]
  · simp only [short, Bool.false_eq_true, ↓reduceIte]
    split
    · next unknown => simp [unknown]
    · next type known =>
        simp only [known, Option.some.injEq]
        constructor
        · rintro ⟨msg, created⟩
          split at created
          · next size => exact ⟨type, rfl, size⟩
          · cases created
        · rintro ⟨_, rfl, size⟩
          exact ⟨_, if_pos size⟩

theorem createInstance_none {data : List UInt8} {type : MsgType} (known : getType data = some type)
    (other : data.length ≠ getTypeDataSize type) : createInstance data = none := by
  cases created : createInstance data with
  | none => rfl
  | some msg =>
      obtain ⟨type', known', size⟩ := createInstance_isSome.mp ⟨msg, created⟩
      rw [known] at known'
      cases known'
      exact absurd size other

theorem createInstance_short {data : List UInt8} (short : data.length < minSize) :
    createInstance data = none := by
  unfold createInstance
  rw [if_pos]
  simpa [isTooSmall] using short

theorem drains_total (buf : List UInt8) : ∃ msgs frag left, Drains buf msgs frag left := by
  induction len : buf.length using Nat.strong_induction_on generalizing buf with
  | _ size ih =>
      by_cases nothing : resync buf = []
      · exact ⟨_, _, _, .done nothing⟩
      cases found : getMsgType (resync buf) with
      | undefined => exact ⟨_, _, _, .cut rfl nothing (getMsgType_undefined.mp found)⟩
      | invalid => exact absurd found (resync_header nothing).2
      | known type =>
          have known := getMsgType_known.mp found
          rcases Nat.lt_or_ge (resync buf).length (getTypeDataSize type) with short | long
          · exact ⟨_, _, _, .part rfl known short⟩
          · have header := minSize_lt_getTypeDataSize type
            have shorter := resync_length buf
            obtain ⟨msg, created⟩ :
                ∃ msg, createInstance ((resync buf).take (getTypeDataSize type)) = some msg :=
              createInstance_isSome.mpr
                ⟨type, by rw [getType_take header.le long, known], List.length_take_of_le long⟩
            obtain ⟨msgs, frag, left, more⟩ :=
              ih ((resync buf).drop (getTypeDataSize type)).length
                (by simp only [List.length_drop]; omega) _ rfl
            exact ⟨_, _, _, .whole rfl known long created more⟩

namespace MsgBuffer

/-- What a function of the buffer leaves behind, apart from `is_too_small`, which
`_gain_msg` sets before it is looked at. -/
def Leaves (result : MsgBuffer) (msgs : List Message) (frag : Option Fragment)
    (left : List UInt8) : Prop :=
  result.msgQueue = msgs ∧ result.toExtractMsg = frag ∧ result.buf = left

theorem extractBytes_ok {b : MsgBuffer} {frag : Fragment} {toWrite : Nat}
    (pending : b.toExtractMsg = some frag) (count : toWrite ≤ b.buf.length)
    (room : frag.readed.length + toWrite ≤ frag.allocated) :
    ∃ b', b.extractBytes toWrite =
        .ok (⟨frag.allocated, frag.readed ++ b.buf.take toWrite⟩, b') ∧
      b'.Leaves b.msgQueue (some ⟨frag.allocated, frag.readed ++ b.buf.take toWrite⟩)
        (b.buf.drop toWrite) := by
  have fits : ¬ ((toWrite : Int) < 0 ∨ (b.buf.length : Int) < toWrite) := by omega
  have within : ¬ frag.allocated < (frag.readed ++ b.buf.take toWrite).length := by
    simp only [List.length_append, List.length_take]
    omega
  simp only [extractBytes, if_neg fits, pending, Int.toNat_natCast, if_neg within]
  exact ⟨_, rfl, rfl, rfl, rfl⟩

/-- A turn that copies bytes: a complete message is queued, otherwise it waits. -/
theorem gainLoop_turn (turns : Nat) {b c : MsgBuffer} {frag : Fragment} {toWrite : Nat}
    (something : b.buf ≠ []) (read : b.reading = .ok ((toWrite : Int), c))
    (pending : c.toExtractMsg = some frag) (positive : 0 < toWrite)
    (count : toWrite ≤ c.buf.length)
    (room : frag.readed.length + toWrite ≤ frag.allocated) :
    ∃ d : MsgBuffer,
      d.Leaves c.msgQueue (some ⟨frag.allocated, frag.readed ++ c.buf.take toWrite⟩)
        (c.buf.drop toWrite) ∧
      gainLoop (turns + 1) b =
        match createInstance (frag.readed ++ c.buf.take toWrite) with
        | some msg =>
            gainLoop turns { d with toExtractMsg := none, msgQueue := d.msgQueue ++ [msg] }
        | none => .ok d := by
  obtain ⟨d, extracted, leaves⟩ := extractBytes_ok pending count room
  have counted : ¬ (toWrite : Int) = 0 := by omega
  refine ⟨d, leaves, ?_⟩
  rw [gainLoop, if_neg something, read]
  show (if (toWrite : Int) = 0 then gainLoop turns c else c.extractBytes toWrite >>= fun r => _) = _
  rw [if_neg counted, extracted]
  rfl

theorem reading_fresh {b c : MsgBuffer} {toWrite : Nat} (fresh : b.toExtractMsg = none)
    (read : newReading 1 b.synced = .ok (toWrite, c)) : b.reading = .ok ((toWrite : Int), c) := by
  have whole := (newReading_synced (Nat.lt_succ_self b.buf.length)).trans read
  simp only [reading, fresh, whole, Bind.bind, Except.bind]

theorem synced_header {b : MsgBuffer} {rest : List UInt8} (found : resync b.buf = rest)
    (something : rest ≠ []) :
    b.synced.buf = rest ∧ hasStartMark b.synced.buf = true ∧ b.buf ≠ [] := by
  subst found
  refine ⟨rfl, (resync_header something).1, ?_⟩
  intro empty
  exact something (by rw [empty]; exact resync_none rfl)

theorem gainLoop_known (turns : Nat) {b : MsgBuffer} {rest : List UInt8} {type : MsgType}
    (fresh : b.toExtractMsg = none) (found : resync b.buf = rest)
    (known : getType rest = some type) :
    ∃ d : MsgBuffer,
      d.Leaves b.msgQueue (some ⟨getTypeDataSize type, rest.take (getTypeDataSize type)⟩)
        (rest.drop (getTypeDataSize type)) ∧
      gainLoop (turns + 1) b =
        match createInstance (rest.take (getTypeDataSize type)) with
        | some msg =>
            gainLoop turns { d with toExtractMsg := none, msgQueue := d.msgQueue ++ [msg] }
        | none => .ok d := by
  have something : rest ≠ [] := by
    rintro rfl
    cases known
  obtain ⟨here, mark, filled⟩ := synced_header found something
  have header := minSize_lt_getTypeDataSize type
  have positive : 0 < min (getTypeDataSize type) rest.length :=
    Nat.lt_min.mpr ⟨by omega, List.length_pos_iff.mpr something⟩
  have read := newReading_known 1 (by decide) mark
    (getMsgType_known.mpr (by rw [here]; exact known))
  obtain ⟨d, leaves, turn⟩ := gainLoop_turn turns filled (reading_fresh fresh read) rfl
    (by rw [here]; exact positive) (Nat.min_le_right _ _) (by simp)
  have taken : rest.take (min (getTypeDataSize type) rest.length) =
      rest.take (getTypeDataSize type) := by
    rw [← List.take_take, List.take_length]
  have dropped : rest.drop (min (getTypeDataSize type) rest.length) =
      rest.drop (getTypeDataSize type) := by
    rcases Nat.le_total (getTypeDataSize type) rest.length with long | short
    · rw [Nat.min_eq_left long]
    · rw [Nat.min_eq_right short, List.drop_length, List.drop_eq_nil_of_le short]
  simp only [here, List.nil_append, taken, dropped] at leaves turn
  exact ⟨d, leaves, turn⟩

theorem gainLoop_drains {buf : List UInt8} {msgs : List Message} {frag : Option Fragment}
    {left : List UInt8} (drains : Drains buf msgs frag left) {turns : Nat} {b : MsgBuffer}
    (enough : buf.length < turns) (contents : b.buf = buf) (fresh : b.toExtractMsg = none) :
    ∃ b', gainLoop turns b = .ok b' ∧ b'.Leaves (b.msgQueue ++ msgs) frag left := by
  -- One turn of the loop for each constructor; only a whole message leads to another.
  induction drains generalizing turns b with
  | @done buf nothing =>
      obtain ⟨turns, rfl⟩ := Nat.exists_eq_add_of_lt enough
      by_cases empty : b.buf = []
      · exact ⟨b, by rw [gainLoop, if_pos empty], (List.append_nil _).symm, fresh, empty⟩
      · have some_left : 0 < buf.length + turns :=
          Nat.add_pos_left (List.length_pos_iff.mpr (contents ▸ empty)) _
        obtain ⟨more, eq⟩ := Nat.exists_eq_add_of_lt some_left
        have synced : b.synced.buf = [] := by rw [synced_buf, contents, nothing]
        have read := reading_fresh fresh (newReading_empty (by decide) synced)
        refine ⟨b.synced, ?_, (List.append_nil _).symm, fresh, synced⟩
        rw [gainLoop, if_neg empty, read]
        simp only [Bind.bind, Except.bind, Nat.cast_zero, ↓reduceIte]
        rw [eq, Nat.zero_add, gainLoop, if_pos synced]
  | @cut buf rest found something short =>
      obtain ⟨turns, rfl⟩ := Nat.exists_eq_add_of_lt enough
      obtain ⟨here, mark, filled⟩ := synced_header (contents ▸ found) something
      have positive : 0 < nextStartPos rest 1 :=
        nextStartPos_ge (List.length_pos_iff.mpr something)
      have read := newReading_undefined 1 (by decide) mark
        (getMsgType_undefined.mpr (by rw [here]; exact short))
      obtain ⟨d, leaves, turn⟩ := gainLoop_turn (buf.length + turns) filled
        (reading_fresh fresh read) rfl (by rw [here]; exact positive) nextStartPos_le (by simp)
      simp only [here, List.nil_append] at leaves turn
      have bytes : (rest.take (nextStartPos rest 1)).length < minSize := by
        simp only [List.length_take]
        omega
      rw [createInstance_short bytes] at turn
      exact ⟨d, turn, by simpa [Leaves] using leaves⟩
  | @part buf rest type found known short =>
      obtain ⟨turns, rfl⟩ := Nat.exists_eq_add_of_lt enough
      obtain ⟨d, leaves, turn⟩ :=
        gainLoop_known (buf.length + turns) fresh (contents ▸ found) known
      rw [List.take_of_length_le short.le, List.drop_eq_nil_of_le short.le] at leaves
      rw [List.take_of_length_le short.le, createInstance_none known short.ne] at turn
      exact ⟨d, turn, by simpa [Leaves] using leaves⟩
  | @whole buf rest type msg msgs frag left found known long created more ih =>
      obtain ⟨turns, rfl⟩ := Nat.exists_eq_add_of_lt enough
      obtain ⟨d, leaves, turn⟩ :=
        gainLoop_known (buf.length + turns) fresh (contents ▸ found) known
      rw [created] at turn
      have shorter : rest.length ≤ buf.length := found ▸ resync_length buf
      have header := minSize_lt_getTypeDataSize type
      have fewer : (rest.drop (getTypeDataSize type)).length < buf.length + turns := by
        simp only [List.length_drop]
        omega
      obtain ⟨b', looped, queued, frag_eq, left_eq⟩ := ih fewer
        (b := { d with toExtractMsg := none, msgQueue := d.msgQueue ++ [msg] }) leaves.2.2 rfl
      refine ⟨b', turn.trans looped, ?_, frag_eq, left_eq⟩
      rw [queued, leaves.1, List.append_assoc, List.singleton_append]

/-- `_gain_msg` where nothing is pending, or where a mark makes it forget what is. -/
theorem gainMsg_drains {msgs : List Message} {frag : Option Fragment} {left : List UInt8}
    {b : MsgBuffer} (drains : Drains b.buf msgs frag left)
    (fresh : b.toExtractMsg = none ∨ hasStartMark b.buf = true) :
    ∃ err b', b.gainMsg = .ok (err, b') ∧ b'.Leaves (b.msgQueue ++ msgs) frag left := by
  obtain ⟨buf, fits, pending, small, queue⟩ := b
  simp only at drains fresh
  -- With a mark in front the fragment is dropped, without one there is none.
  by_cases mark : hasStartMark buf = true
  · obtain ⟨b', looped, leaves⟩ := gainLoop_drains drains (Nat.lt_succ_self buf.length)
      (b := ⟨buf, fits, none, false, queue⟩) rfl rfl
    refine ⟨.buffOk, b', ?_, leaves⟩
    cases pending <;> simp [gainMsg, mark, looped, Bind.bind, Except.bind]
  · obtain rfl : pending = none := fresh.resolve_right mark
    have unmarked : hasStartMark buf = false := by simpa using mark
    have moved := moveMsgToStart_eq ⟨buf, fits, none, false, queue⟩
    by_cases empty : resync buf = []
    · cases drains with
      | done nothing =>
          refine ⟨.emptyBuff, ⟨[], Nat.zero_le _, none, false, queue⟩, ?_,
            (List.append_nil _).symm, rfl, rfl⟩
          simp [gainMsg, unmarked, moved, Bind.bind, Except.bind, empty, setBuf]
      | cut found something short => exact absurd (found.symm.trans empty) something
      | part found known short =>
          rw [found.symm.trans empty] at known
          cases known
      | whole found known long created more =>
          rw [found.symm.trans empty] at known
          cases known
    · obtain ⟨b', looped, leaves⟩ :=
        gainLoop_drains (drains.of_resync (resync_resync buf)) (Nat.lt_succ_self _)
          (b := setBuf ⟨buf, fits, none, false, queue⟩ (resync buf) (resync_length buf)) rfl rfl
      refine ⟨.buffOk, b', ?_, leaves⟩
      simp [gainMsg, unmarked, moved, Bind.bind, Except.bind, empty, looped]

end MsgBuffer

/-- Bytes in which the messages stand one behind the other, each in a slice that is
exactly its encoding's size, and then the bytes that were not used. -/
inductive Slices : List UInt8 → List Message → List UInt8 → Prop where
  | nil (gap tail : List UInt8) : Slices (gap ++ tail) [] tail
  | cons (gap : List UInt8) {slice rest tail : List UInt8} {type : MsgType} {msg : Message}
      {msgs : List Message} (mark : hasStartMark slice = true)
      (valid : getType slice = some type) (size : slice.length = getTypeDataSize type)
      (decoded : createInstance slice = some msg) (more : Slices rest msgs tail) :
      Slices (gap ++ (slice ++ rest)) (msg :: msgs) tail

/-- The bytes of a message that is not complete: too few to tell its type, or fewer
than the type asks for. -/
def Incomplete (bytes : List UInt8) : Prop :=
  bytes.length < minSize ∨
    ∃ type, getType bytes = some type ∧ bytes.length < getTypeDataSize type

def pendingBytes (frag : Option Fragment) : List UInt8 := (frag.map Fragment.readed).getD []

theorem Drains.slices {buf : List UInt8} {msgs : List Message} {frag : Option Fragment}
    {left : List UInt8} (drains : Drains buf msgs frag left) :
    Slices buf msgs (pendingBytes frag ++ left) := by
  induction drains with
  | @done buf nothing => simpa [pendingBytes] using Slices.nil buf []
  | @cut buf rest found something short =>
      obtain ⟨gap, split⟩ := found ▸ resync_suffix buf
      simpa [pendingBytes, ← split] using Slices.nil gap rest
  | @part buf rest type found known short =>
      obtain ⟨gap, split⟩ := found ▸ resync_suffix buf
      simpa [pendingBytes, ← split] using Slices.nil gap rest
  | @whole buf rest type msg msgs frag left found known long created more ih =>
      obtain ⟨gap, split⟩ := found ▸ resync_suffix buf
      have something : rest ≠ [] := by
        rintro rfl
        cases known
      have header := minSize_lt_getTypeDataSize type
      have mark : hasStartMark (rest.take (getTypeDataSize type)) = true := by
        obtain ⟨tail, cons⟩ := hasStartMark_iff.mp (found ▸ (resync_header (found ▸ something)).1)
        obtain ⟨size, pos⟩ := Nat.exists_eq_add_of_lt (Nat.zero_lt_of_lt header)
        rw [pos, cons]
        simp [hasStartMark]
      have slice := Slices.cons gap mark (by rw [getType_take header.le long, known])
        (List.length_take_of_le long) created ih
      rwa [List.take_append_drop, split] at slice

theorem Drains.left_short {buf : List UInt8} {msgs : List Message} {frag : Option Fragment}
    {left : List UInt8} (drains : Drains buf msgs frag left) : left.length ≤ 3 := by
  induction drains with
  | done nothing => simp
  | @cut buf rest found something short =>
      have positive : 1 ≤ nextStartPos rest 1 := nextStartPos_ge (List.length_pos_iff.mpr something)
      simp only [List.length_drop, minSize] at *
      omega
  | part found known short => simp
  | whole found known long created more ih => exact ih

theorem Drains.incomplete {buf : List UInt8} {msgs : List Message} {frag : Option Fragment}
    {left : List UInt8} (drains : Drains buf msgs frag left) {pending : Fragment}
    (is_pending : frag = some pending) : Incomplete pending.readed := by
  induction drains with
  | done nothing => cases is_pending
  | cut found something short =>
      cases is_pending
      exact .inl (by simp only [List.length_take]; omega)
  | part found known short =>
      cases is_pending
      exact .inr ⟨_, known, short⟩
  | whole found known long created more ih => exact ih is_pending

theorem readMsg_not_full {b : MsgBuffer} (room : b.buf.length < buffSize) (fd : Int)
    (answer : Option (List UInt8)) (after : MsgBuffer) :
    b.readMsg fd answer ≠ .ok (.fullBuff, after) := by
  intro full
  have some_room : ¬ buffSize - b.buf.length = 0 := by omega
  unfold MsgBuffer.readMsg at full
  split at full
  · cases full
  · split at full
    · cases full
    · cases full
    · obtain ⟨value, _, last⟩ := bind_ok full
      cases last

/-- Draining any contents ends. It takes out messages that stand in the contents,
leaves at most three bytes and a fragment that is no whole message, and so the next
read finds room. -/
theorem gainMsg_sound (b : MsgBuffer) (fresh : b.toExtractMsg = none) :
    ∃ err b' msgs, b.gainMsg = .ok (err, b') ∧
      b'.msgQueue = b.msgQueue ++ msgs ∧
      Slices b.buf msgs (pendingBytes b'.toExtractMsg ++ b'.buf) ∧
      b'.buf.length ≤ 3 ∧
      (∀ frag, b'.toExtractMsg = some frag → Incomplete frag.readed) ∧
      ∀ fd answer after, b'.readMsg fd answer ≠ .ok (.fullBuff, after) := by
  obtain ⟨msgs, frag, left, drains⟩ := drains_total b.buf
  obtain ⟨err, b', gained, queued, pending, stays⟩ := MsgBuffer.gainMsg_drains drains (.inl fresh)
  have short : b'.buf.length ≤ 3 := stays ▸ drains.left_short
  refine ⟨err, b', msgs, gained, queued, ?_, short, ?_, ?_⟩
  · rw [pending, stays]
    exact drains.slices
  · intro pending' is_pending
    exact drains.incomplete (pending.symm.trans is_pending)
  · exact readMsg_not_full (Nat.lt_of_le_of_lt short (by decide))

/-- Noise with a mark in it, a message, and the beginning of the next one. -/
theorem gainMsg_sound_mixed :
    ∃ err b' msgs,
      (⟨[7, 96, 200, 0, 0, 0] ++ (Message.mk 5 .serverConnReq).getData ++ [96, 2, 96], by decide,
        none, true, []⟩ : MsgBuffer).gainMsg = .ok (err, b') ∧
      b'.msgQueue = msgs ∧ b'.buf.length ≤ 3 := by
  obtain ⟨err, b', msgs, gained, queued, -, short, -⟩ := gainMsg_sound
    ⟨[7, 96, 200, 0, 0, 0] ++ (Message.mk 5 .serverConnReq).getData ++ [96, 2, 96], by decide,
      none, true, []⟩ rfl
  exact ⟨err, b', msgs, gained, queued, short⟩

end Battleship
