import Battleship.WireBounds
import Battleship.Library.Framing

/-! A stream of whole encodings that is cut into chunks anywhere: when the messages
still arrive as they were sent. -/
namespace Battleship

open Runs Framing

abbrev encodings (msgs : List Message) : List UInt8 := stream Message.getData msgs

theorem createInstance_length {data : List UInt8} {msg : Message}
    (created : createInstance data = some msg) : msg.getData.length = data.length := by
  obtain ⟨type, known, size⟩ := createInstance_isSome.mp ⟨msg, created⟩
  have same : msg.type = type := by
    unfold createInstance at created
    unfold getType at known
    split at created
    · cases created
    · next long =>
        rw [if_neg long] at known
        rw [known] at created
        simp only [size, ↓reduceIte, Option.some.injEq] at created
        subst created
        cases type <;> rfl
  rw [msg.getData_length, same, size]

theorem Slices.length {buf tail : List UInt8} {msgs : List Message}
    (slices : Slices buf msgs tail) : (encodings msgs).length + tail.length ≤ buf.length := by
  induction slices with
  | nil gap tail => simp
  | cons gap mark valid size decoded more ih =>
      simp only [encodings, stream_cons, List.length_append] at ih ⊢
      rw [createInstance_length decoded]
      omega

theorem Drains.length {buf : List UInt8} {msgs : List Message} {frag : Option Fragment}
    {left : List UInt8} (drains : Drains buf msgs frag left) :
    (encodings msgs).length + ((pendingBytes frag).length + left.length) ≤ buf.length := by
  simpa using drains.slices.length

namespace Reader

/-- The bytes that the reader has made use of or still holds. -/
def size (reader : Reader) : Nat :=
  (encodings reader.msgs).length + (pendingBytes reader.buffer.toExtractMsg).length +
    reader.buffer.buf.length

theorem arrived_length (reader : Reader) (chunk : List UInt8) :
    (reader.arrived chunk).length ≤ reader.buffer.buf.length + chunk.length := by
  rw [arrived_eq, List.length_append, List.length_take]
  omega

theorem size_drains {reader reader' : Reader} {chunk : List UInt8} {msgs : List Message}
    {frag : Option Fragment} {left : List UInt8}
    (drains : Drains (reader.arrived chunk) msgs frag left)
    (received : reader'.msgs = reader.msgs ++ msgs)
    (pending : reader'.buffer.toExtractMsg = frag) (stays : reader'.buffer.buf = left) :
    reader'.size ≤
      (encodings reader.msgs).length + reader.buffer.buf.length + chunk.length := by
  have used := drains.length
  have brought := reader.arrived_length chunk
  simp only [size, received, pending, stays, encodings, stream_append, List.length_append] at *
  omega

theorem step_size {fd : Nat} {reader reader' : Reader} {chunk : List UInt8}
    (done : step fd reader chunk = .ok reader') :
    reader'.size ≤ reader.size + chunk.length := by
  by_cases idle : chunk = [] ∨ reader.buffer.buf.length = buffSize
  · rw [step_idle idle] at done
    cases done
    simp [size, Reader.msgs]
  obtain ⟨something, room⟩ := not_or.mp idle
  -- A mark in front makes `_gain_msg` forget the fragment, as if none were pending.
  by_cases fresh : reader.buffer.toExtractMsg = none ∨ hasStartMark (reader.arrived chunk) = true
  · obtain ⟨msgs, frag, left, drains⟩ := drains_total (reader.arrived chunk)
    obtain ⟨after, again, received, pending, stays⟩ :=
      step_drains fd something room fresh drains
    obtain rfl : after = reader' := Except.ok.inj (again.symm.trans done)
    have bound := size_drains drains received pending stays
    unfold size at *
    omega
  · obtain ⟨waiting, marked⟩ := not_or.mp fresh
    have unmarked := Bool.eq_false_iff.mpr marked
    obtain ⟨frag, pending⟩ := Option.ne_none_iff_exists'.mp waiting
    have bounds := (step_ok_iff fd reader chunk).mp ⟨reader', done⟩
    have inside := ((bounds.resolve_left something).resolve_left room) frag pending
    obtain ⟨type, copies⟩ := inObject_iff.mp (inside.resolve_left marked)
    have brought := reader.arrived_length chunk
    have within := copies.within
    cases created : createInstance (frag.readed ++
        (reader.arrived chunk).take (finishingCount frag (reader.arrived chunk) type)) with
    | none =>
        obtain ⟨after, again, received, pending', stays⟩ :=
          step_waits fd something room pending unmarked copies created
        obtain rfl : after = reader' := Except.ok.inj (again.symm.trans done)
        simp only [size, received, pending, pending', stays, pendingBytes, Option.map_some,
          Option.getD_some, List.length_append, List.length_take, List.length_drop]
        omega
    | some msg =>
        obtain ⟨msgs, frag', left, drains⟩ := drains_total
          ((reader.arrived chunk).drop (finishingCount frag (reader.arrived chunk) type))
        obtain ⟨after, again, received, pending', stays⟩ :=
          step_completes fd something room pending unmarked copies created drains
        obtain rfl : after = reader' := Except.ok.inj (again.symm.trans done)
        have used := drains.length
        have message := createInstance_length created
        simp only [size, received, pending, pending', stays, pendingBytes, encodings,
          stream_append, stream_cons, Option.map_some, Option.getD_some, List.length_append,
          List.length_take, List.length_drop] at *
        omega

theorem run_size {fd : Nat} {reader reader' : Reader} {chunks : List (List UInt8)}
    (done : run (step fd) reader chunks = .ok reader') :
    reader'.size ≤ reader.size + chunks.flatten.length := by
  rw [List.length_flatten]
  exact run_measure (step fd) (fun _ _ _ next => step_size next) done

end Reader

/-- A buffer that has used up the stream to a message boundary, or to some place inside
the next message, with the messages and the bytes that are still to come. -/
inductive Midway : MsgBuffer → List Message → List UInt8 → Prop where
  | between {b : MsgBuffer} {msgs : List Message} (empty : b.buf = [])
      (fresh : b.toExtractMsg = none) : Midway b msgs (encodings msgs)
  | inside {b : MsgBuffer} {frag : Fragment} {msg : Message} {msgs : List Message}
      {rest : List UInt8} (pending : b.toExtractMsg = some frag)
      (something : frag.readed ≠ []) (missing : frag.readed.length < msg.getData.length)
      (announced : minSize ≤ frag.readed.length → frag.allocated = msg.getData.length)
      (whole : frag.readed ++ (b.buf ++ rest) = encodings (msg :: msgs)) :
      Midway b (msg :: msgs) rest

theorem getData_ne_nil (msg : Message) : msg.getData ≠ [] := by
  obtain ⟨rest, cons⟩ := getData_cons msg
  rw [cons]
  exact List.cons_ne_nil _ _

theorem Midway.finished {b : MsgBuffer} {msgs : List Message} {rest : List UInt8}
    (midway : Midway b msgs rest) (empty : rest = []) :
    b.toExtractMsg = none ↔ msgs = [] := by
  cases midway with
  | between none fresh =>
      exact iff_of_true fresh (stream_eq_nil Message.getData getData_ne_nil empty)
  | inside pending something missing announced whole =>
      exact iff_of_false (by rw [pending]; exact Option.some_ne_none _) (List.cons_ne_nil _ _)

/-- From a message boundary on the whole messages come out and the beginning of the
next one becomes the fragment. -/
theorem drains_stream {msgs : List Message} {arrived rest : List UInt8}
    (whole : arrived ++ rest = encodings msgs) :
    ∃ done frag msgs', Drains arrived done frag [] ∧ msgs = done ++ msgs' ∧
      (rest = [] → frag = none) ∧
      ∀ b : MsgBuffer, b.toExtractMsg = frag → b.buf = [] → Midway b msgs' rest := by
  obtain ⟨full, cut, others, rfl, rfl, tail, next⟩ := split_stream Message.getData whole
  have drains_full {frag : Option Fragment} (last : Drains cut [] frag []) :
      Drains (encodings full ++ cut) full frag [] := by
    clear whole
    induction full with
    | nil => exact last
    | cons msg full ih =>
        rw [encodings, stream_cons, List.append_assoc]
        exact drains_whole ih
  -- The stream is cut at a boundary or inside the message that comes next.
  rcases next with rfl | ⟨msg, later, rfl, start, shorter⟩
  · refine ⟨full, none, others, drains_full (.done (resync_none rfl)), rfl, fun _ => rfl, ?_⟩
    intro b fresh empty
    rw [List.nil_append] at tail
    exact tail ▸ .between empty fresh
  · have proper : cut ≠ msg.getData := fun same => by simp [same] at shorter
    obtain ⟨frag, last, holds⟩ := drains_cut start proper
    refine ⟨full, frag, msg :: later, drains_full last, rfl, ?_, ?_⟩
    · rintro rfl
      have lengths := congrArg List.length tail
      simp only [List.append_nil, stream_cons, List.length_append] at lengths
      omega
    · intro b pending empty
      cases frag with
      | none =>
          obtain rfl : cut = [] := holds
          rw [List.nil_append] at tail
          exact tail ▸ .between empty pending
      | some frag =>
          obtain ⟨rfl, something, announced⟩ := holds
          exact .inside pending something shorter announced (by rw [empty, List.nil_append, tail])

/-- A read with a fragment pending does not begin with a mark and stays in the bounds. -/
def Resumes (reader : Reader) (chunk : List UInt8) : Prop :=
  ∀ frag, reader.buffer.toExtractMsg = some frag →
    hasStartMark (reader.arrived chunk) = false ∧ InObject frag (reader.arrived chunk)

/-- A read with a fragment pending brings the message to its end: the next mark is there
and the object reaches so far, or exactly the size of the object was missing. -/
def Concludes (reader : Reader) (chunk : List UInt8) : Prop :=
  ∀ frag, reader.buffer.toExtractMsg = some frag →
    ∃ type, objectType frag.readed = some type ∧
      ((frag.allocated ≤ getTypeSize type ∧
          frag.readed.length + nextStartPos (reader.arrived chunk) 0 = frag.allocated) ∨
        (getTypeSize type < frag.readed.length + nextStartPos (reader.arrived chunk) 0 ∧
          frag.readed.length + getTypeSize type = frag.allocated))

theorem concludes_iff {reader : Reader} {chunk : List UInt8} {frag : Fragment} {type : MsgType}
    (pending : reader.buffer.toExtractMsg = some frag)
    (copies : Copies frag (reader.arrived chunk) type) :
    Concludes reader chunk ↔
      frag.readed.length + finishingCount frag (reader.arrived chunk) type = frag.allocated := by
  have unfolded : Concludes reader chunk ↔
      (frag.allocated ≤ getTypeSize type ∧
          frag.readed.length + nextStartPos (reader.arrived chunk) 0 = frag.allocated) ∨
        (getTypeSize type < frag.readed.length + nextStartPos (reader.arrived chunk) 0 ∧
          frag.readed.length + getTypeSize type = frag.allocated) := by
    constructor
    · intro concludes
      obtain ⟨type', known, ends⟩ := concludes frag pending
      obtain rfl : type = type' := Option.some.inj (copies.known.symm.trans known)
      exact ends
    · intro ends frag' pending'
      obtain rfl : frag = frag' := Option.some.inj (pending.symm.trans pending')
      exact ⟨type, copies.known, ends⟩
  rw [unfolded]
  unfold finishingCount
  split <;> omega

/-- The step of a stream that goes on: the messages that came out are the next ones. -/
theorem Midway.step (fd : Nat) {reader : Reader} {msgs : List Message} {chunk rest : List UInt8}
    (midway : Midway reader.buffer msgs (chunk ++ rest)) (something : chunk ≠ [])
    (room : chunk.length ≤ buffSize - reader.buffer.buf.length)
    (resumes : Resumes reader chunk) :
    ∃ reader' done msgs', Reader.step fd reader chunk = .ok reader' ∧ msgs = done ++ msgs' ∧
      reader'.msgs = reader.msgs ++ done ∧ Midway reader'.buffer msgs' rest ∧
      (rest = [] → (reader'.buffer.toExtractMsg = none ↔ Concludes reader chunk)) := by
  have positive : 0 < chunk.length := List.length_pos_iff.mpr something
  have free : reader.buffer.buf.length ≠ buffSize := by omega
  have arrived : reader.arrived chunk = reader.buffer.buf ++ chunk :=
    Reader.arrived_of_room (by have := reader.buffer.fits; omega)
  generalize total : chunk ++ rest = remaining at midway
  cases midway with
  | between empty fresh =>
      rw [empty, List.nil_append] at arrived
      obtain ⟨done, frag, msgs', drains, split, last, next⟩ := drains_stream total
      obtain ⟨reader', stepped, received, pending, stays⟩ :=
        Reader.step_drains fd something free (.inl fresh) (arrived.symm ▸ drains)
      refine ⟨reader', done, msgs', stepped, split, received, next _ pending stays, ?_⟩
      intro ended
      refine iff_of_true (pending.trans (last ended)) ?_
      intro frag' pending'
      rw [fresh] at pending'
      cases pending'
  | @inside frag msg later _ pending begun missing announced whole =>
      obtain ⟨unmarked, inObject⟩ := resumes frag pending
      obtain ⟨type, copies⟩ := inObject_iff.mp inObject
      have size := announced (Nat.le_trans (by decide) copies.long)
      have concludes := concludes_iff pending copies
      have bound := copies.room
      have header : minSize ≤ frag.readed.length := Nat.le_trans (by decide) copies.long
      -- The fragment with what it takes begins the message it was started for.
      have split : (frag.readed ++
            (reader.arrived chunk).take (finishingCount frag (reader.arrived chunk) type)) ++
          ((reader.arrived chunk).drop (finishingCount frag (reader.arrived chunk) type) ++ rest) =
          msg.getData ++ encodings later := by
        rw [List.append_assoc, ← List.append_assoc (List.take _ _), List.take_append_drop, arrived,
          List.append_assoc, total, whole, encodings, stream_cons]
      have taken : (frag.readed ++ (reader.arrived chunk).take
          (finishingCount frag (reader.arrived chunk) type)).length =
          frag.readed.length + finishingCount frag (reader.arrived chunk) type := by
        rw [List.length_append, List.length_take_of_le copies.within]
      have start : frag.readed ++ (reader.arrived chunk).take
          (finishingCount frag (reader.arrived chunk) type) <+: msg.getData :=
        List.prefix_of_prefix_length_le (split ▸ List.prefix_append _ _) (List.prefix_append _ _)
          (by omega)
      -- The message is complete, or the object goes on waiting for the rest.
      by_cases complete : frag.readed.length +
          finishingCount frag (reader.arrived chunk) type = frag.allocated
      · have all := start.eq_of_length (by omega)
        have following : (reader.arrived chunk).drop
            (finishingCount frag (reader.arrived chunk) type) ++ rest = encodings later :=
          (List.append_inj split (by rw [all])).2
        obtain ⟨done, frag', msgs', drains, rfl, last, next⟩ := drains_stream following
        obtain ⟨reader', stepped, received, pending', stays⟩ :=
          Reader.step_completes fd something free pending unmarked copies
            (by rw [all]; exact createInstance_getData msg) drains
        exact ⟨reader', msg :: done, msgs', stepped, rfl, received, next _ pending' stays,
          fun ended => iff_of_true (pending'.trans (last ended)) (concludes.mpr complete)⟩
      · have known := getType_prefix start (by omega)
        have other := createInstance_none known (by rw [← msg.getData_length]; omega)
        obtain ⟨reader', stepped, received, pending', stays⟩ :=
          Reader.step_waits fd something free pending unmarked copies other
        refine ⟨reader', [], msg :: later, stepped, rfl,
          received.trans (List.append_nil _).symm, .inside pending' ?_ ?_ (fun _ => size) ?_, ?_⟩
        · exact List.append_ne_nil_of_left_ne_nil begun _
        · simp only
          omega
        · rw [stays, encodings, stream_cons]
          exact split
        · intro _
          refine iff_of_false (by rw [pending']; exact Option.some_ne_none _) ?_
          exact fun ends => complete (concludes.mp ends)

/-- `read` answers with no more bytes than there is room for. -/
def HasRoom (reader : Reader) (chunk : List UInt8) : Prop :=
  chunk.length ≤ buffSize - reader.buffer.buf.length

instance (reader : Reader) (chunk : List UInt8) : Decidable (HasRoom reader chunk) :=
  inferInstanceAs (Decidable (_ ≤ _))

theorem Midway.run {fd : Nat} {reader : Reader} {msgs : List Message} {chunks : List (List UInt8)}
    {rest : List UInt8} (midway : Midway reader.buffer msgs (chunks.flatten ++ rest))
    (nonempty : ∀ chunk ∈ chunks, chunk ≠ [])
    (room : AllSteps (Reader.step fd) HasRoom reader chunks)
    (resumes : AllSteps (Reader.step fd) Resumes reader chunks) :
    ∃ reader' done msgs', Runs.run (Reader.step fd) reader chunks = .ok reader' ∧
      msgs = done ++ msgs' ∧ reader'.msgs = reader.msgs ++ done ∧
      Midway reader'.buffer msgs' rest := by
  induction chunks generalizing reader msgs with
  | nil => exact ⟨reader, [], msgs, rfl, rfl, (List.append_nil _).symm, midway⟩
  | cons chunk chunks ih =>
      rw [List.flatten_cons, List.append_assoc] at midway
      obtain ⟨middle, done, msgs', stepped, rfl, received, next, -⟩ :=
        midway.step fd (nonempty chunk List.mem_cons_self) room.1 resumes.1
      obtain ⟨reader', done', msgs'', ran, rfl, received', last⟩ := ih next
        (fun other member => nonempty other (List.mem_cons_of_mem _ member))
        (room.2 middle stepped) (resumes.2 middle stepped)
      refine ⟨reader', done ++ done', msgs'', (run_cons_ok _ stepped).mpr ran,
        (List.append_assoc _ _ _).symm, ?_, last⟩
      rw [received', received, List.append_assoc]

/-- If everything arrives no fragment was dropped: its bytes would be missing. -/
theorem Midway.resumes {fd : Nat} {reader reader' : Reader} {msgs : List Message}
    {chunks : List (List UInt8)} (midway : Midway reader.buffer msgs chunks.flatten)
    (nonempty : ∀ chunk ∈ chunks, chunk ≠ [])
    (room : AllSteps (Reader.step fd) HasRoom reader chunks)
    (ran : Runs.run (Reader.step fd) reader chunks = .ok reader')
    (received : reader'.msgs = reader.msgs ++ msgs) :
    AllSteps (Reader.step fd) Resumes reader chunks := by
  induction chunks generalizing reader msgs with
  | nil => trivial
  | cons chunk chunks ih =>
      obtain ⟨middle, stepped, rest⟩ := run_cons _ ran
      have something : chunk ≠ [] := nonempty chunk List.mem_cons_self
      have free : reader.buffer.buf.length ≠ buffSize := by
        have positive := List.length_pos_iff.mpr something
        have := room.1
        unfold HasRoom at this
        omega
      have here : Resumes reader chunk := by
        intro frag pending
        have kept : hasStartMark (reader.arrived chunk) = false := by
          by_contra marked
          obtain ⟨msgs₁, frag₁, left, drains⟩ := drains_total (reader.arrived chunk)
          obtain ⟨after, again, received₁, pending₁, stays⟩ := Reader.step_drains fd
            something free (.inr (by simpa using marked)) drains
          obtain rfl : after = middle := Except.ok.inj (again.symm.trans stepped)
          -- The bytes of the fragment would be lost, and no more can come out than went in.
          have used := Reader.size_drains drains received₁ pending₁ stays
          have later := Reader.run_size rest
          have lengths := congrArg List.length (List.flatten_cons (l := chunk) (L := chunks))
          generalize (chunk :: chunks).flatten = remaining at midway lengths
          cases midway with
          | between empty fresh =>
              rw [fresh] at pending
              cases pending
          | inside pending' begun missing announced whole =>
              obtain rfl := Option.some.inj (pending.symm.trans pending')
              have begun := List.length_pos_iff.mpr begun
              have total := congrArg List.length whole
              simp only [Reader.size, received, encodings, stream_append, List.length_append]
                at used later total lengths
              omega
        have bounds := (Reader.step_ok_iff fd reader chunk).mp ⟨middle, stepped⟩
        have inside := ((bounds.resolve_left something).resolve_left free) frag pending
        exact ⟨kept, inside.resolve_left (by simp [kept])⟩
      rw [List.flatten_cons] at midway
      obtain ⟨after, done, msgs', again, rfl, received₁, next, -⟩ :=
        midway.step fd something room.1 here
      obtain rfl : after = middle := Except.ok.inj (again.symm.trans stepped)
      refine ⟨here, fun other same => ?_⟩
      obtain rfl : after = other := Except.ok.inj (again.symm.trans same)
      refine ih next (fun other member => nonempty other (List.mem_cons_of_mem _ member))
        (room.2 after stepped) rest ?_
      rw [received, received₁, List.append_assoc]

/-- The messages arrive exactly as they were sent if and only if each chunk that begins
inside a message resumes it, and the last one concludes it. -/
theorem chunking_independent_iff (fd : Nat) (msgs : List Message) (chunks : List (List UInt8))
    (whole : chunks.flatten = encodings msgs) (nonempty : ∀ chunk ∈ chunks, chunk ≠ [])
    (room : AllSteps (Reader.step fd) HasRoom Reader.init chunks) :
    (∃ reader, run (Reader.step fd) Reader.init chunks = .ok reader ∧ reader.msgs = msgs) ↔
      AllSteps (Reader.step fd) Resumes Reader.init chunks ∧
        ∀ before last reader, chunks = before ++ [last] →
          run (Reader.step fd) Reader.init before = .ok reader → Concludes reader last := by
  have start : Midway Reader.init.buffer msgs chunks.flatten := whole ▸ .between rfl rfl
  -- Nothing is pending at the end exactly if no message is missing.
  have none_left (resumes : AllSteps (Reader.step fd) Resumes Reader.init chunks) :
      ∃ reader done msgs', run (Reader.step fd) Reader.init chunks = .ok reader ∧
        msgs = done ++ msgs' ∧ reader.msgs = done ∧
        (reader.buffer.toExtractMsg = none ↔ msgs' = []) := by
    rw [← List.append_nil chunks.flatten] at start
    obtain ⟨reader, done, msgs', ran, split, received, last⟩ := start.run nonempty room resumes
    exact ⟨reader, done, msgs', ran, split, received, last.finished rfl⟩
  have ends (resumes : AllSteps (Reader.step fd) Resumes Reader.init chunks)
      {before : List (List UInt8)} {last : List UInt8} {middle reader : Reader}
      (split : chunks = before ++ [last])
      (ran : run (Reader.step fd) Reader.init before = .ok middle)
      (ended : run (Reader.step fd) Reader.init chunks = .ok reader) :
      reader.buffer.toExtractMsg = none ↔ Concludes middle last := by
    subst split
    rw [List.flatten_append] at start
    obtain ⟨middle', done, msgs', ran', -, -, next⟩ := Midway.run start
      (fun chunk member => nonempty chunk (List.mem_append_left _ member)) room.before
      resumes.before
    obtain rfl : middle' = middle := Except.ok.inj (ran'.symm.trans ran)
    simp only [List.flatten_cons, List.flatten_nil] at next
    obtain ⟨reader', -, -, stepped, -, -, -, concludes⟩ := next.step fd
      (nonempty last (by simp)) ((AllSteps.snoc _ ran).mp room).2
      ((AllSteps.snoc _ ran).mp resumes).2
    obtain rfl : reader' = reader :=
      Except.ok.inj (stepped.symm.trans (run_last (Reader.step fd) ran ended))
    exact concludes rfl
  constructor
  · rintro ⟨reader, ran, received⟩
    have resumes := start.resumes nonempty room ran received
    refine ⟨resumes, fun before last middle split prior => ?_⟩
    obtain ⟨reader', done, msgs', again, rfl, received', left⟩ := none_left resumes
    obtain rfl : reader' = reader := Except.ok.inj (again.symm.trans ran)
    have none : msgs' = [] := by
      rw [received'] at received
      exact List.self_eq_append_right.mp received
    exact (ends resumes split prior ran).mp (left.mpr none)
  · rintro ⟨resumes, concludes⟩
    obtain ⟨reader, done, msgs', ran, rfl, received, left⟩ := none_left resumes
    refine ⟨reader, ran, ?_⟩
    have fresh : reader.buffer.toExtractMsg = none := by
      rcases List.eq_nil_or_concat chunks with rfl | ⟨before, last, rfl⟩
      · cases ran
        rfl
      · rw [List.concat_eq_append] at *
        obtain ⟨middle, prior, stepped⟩ := (run_snoc_ok (Reader.step fd)).mp ran
        exact (ends resumes rfl prior ran).mpr (concludes before last middle rfl prior)
    rw [received, left.mp fresh, List.append_nil]

/-- What is known of a reader after a step whose outcome was computed. -/
theorem Reader.step_view {α : Type} {fd : Nat} {reader reader' : Reader} {chunk : List UInt8}
    {view : Reader → α} {seen : α} (outcome : (step fd reader chunk).map view = .ok seen)
    (done : step fd reader chunk = .ok reader') : view reader' = seen := by
  rw [done] at outcome
  exact Except.ok.inj outcome

/-- The last byte of its number is taken for the type of an object. -/
def wideMsg : Message := ⟨0x0100000000000005, .gameState 0⟩

def wideStart : List UInt8 := encodings [⟨96, .serverConnReq⟩] ++ wideMsg.getData.take 16

def wideEnd : List UInt8 := wideMsg.getData.drop 16 ++ encodings [⟨2, .gameSessionReq⟩]

/-- A message that is cut behind its sixteenth byte arrives between two others. -/
theorem chunking_independent_iff_cut :
    ∃ reader, run (Reader.step 4) Reader.init [wideStart, wideEnd] = .ok reader ∧
      reader.msgs = [⟨96, .serverConnReq⟩, wideMsg, ⟨2, .gameSessionReq⟩] := by
  have first : (Reader.step 4 Reader.init wideStart).map
      (fun reader => (reader.buffer.buf, reader.buffer.toExtractMsg)) =
        .ok ([], some ⟨17, wideMsg.getData.take 16⟩) := by
    decide +kernel
  have known {middle : Reader} (stepped : Reader.step 4 Reader.init wideStart = .ok middle) :
      middle.buffer.buf = [] ∧ middle.buffer.toExtractMsg = some ⟨17, wideMsg.getData.take 16⟩ ∧
        middle.arrived wideEnd = wideEnd := by
    have view := Reader.step_view first stepped
    simp only [Prod.mk.injEq] at view
    refine ⟨view.1, view.2, ?_⟩
    rw [Reader.arrived_eq, view.1]
    decide
  refine (chunking_independent_iff 4 [⟨96, .serverConnReq⟩, wideMsg, ⟨2, .gameSessionReq⟩]
    [wideStart, wideEnd] (by decide) (by decide)
    ⟨by decide, fun middle stepped => ⟨?_, fun _ _ => trivial⟩⟩).mpr
    ⟨⟨?_, fun middle stepped => ⟨?_, fun _ _ => trivial⟩⟩, ?_⟩
  · rw [HasRoom, (known stepped).1]
    decide
  · intro frag pending
    cases pending
  · intro frag pending
    obtain ⟨_, half, arrived⟩ := known stepped
    obtain rfl := Option.some.inj (half.symm.trans pending)
    rw [arrived]
    exact ⟨by decide, .gameState, by decide, by decide, .inl (by decide)⟩
  · intro before last reader split ran frag pending
    obtain ⟨rfl, rfl⟩ : before = [_] ∧ last = _ :=
      ⟨by simpa using congrArg List.dropLast split.symm,
        by simpa using congrArg List.getLast? split.symm⟩
    obtain ⟨middle, stepped, rest⟩ := run_cons _ ran
    obtain rfl : middle = reader := Except.ok.inj rest
    obtain ⟨_, half, arrived⟩ := known stepped
    obtain rfl := Option.some.inj (half.symm.trans pending)
    rw [arrived]
    exact ⟨.gameState, by decide, .inl (by decide)⟩

/-- The receipt for the request 96, cut behind its header: the second chunk begins with
the mark byte and the receipt is dropped. -/
theorem receipt_dropped :
    ¬ ∀ (msgs : List Message) (chunks : List (List UInt8)), chunks.flatten = encodings msgs →
      (∀ chunk ∈ chunks, chunk ≠ []) → AllSteps (Reader.step 4) HasRoom Reader.init chunks →
      ∃ reader, run (Reader.step 4) Reader.init chunks = .ok reader ∧ reader.msgs = msgs := by
  intro independent
  have first : (Reader.step 4 Reader.init
      ((Message.mk 5 (.receipt 96)).getData.take headerSize)).map
        (fun reader => reader.buffer.buf) = .ok [] := by
    decide +kernel
  have lost : (run (Reader.step 4) Reader.init
      [(Message.mk 5 (.receipt 96)).getData.take headerSize,
        (Message.mk 5 (.receipt 96)).getData.drop headerSize]).map Reader.msgs = .ok [] := by
    decide +kernel
  obtain ⟨reader, ran, received⟩ := independent [⟨5, .receipt 96⟩]
    [(Message.mk 5 (.receipt 96)).getData.take headerSize,
      (Message.mk 5 (.receipt 96)).getData.drop headerSize]
    (by decide) (by decide)
    ⟨by decide, fun middle stepped => ⟨by
      rw [HasRoom, show middle.buffer.buf = [] from Reader.step_view first stepped]
      decide, fun _ _ => trivial⟩⟩
  rw [ran] at lost
  have none : reader.msgs = [] := Except.ok.inj lost
  rw [received] at none
  cases none

end Battleship
