import Mathlib.Tactic

/-! A stream that is a concatenation of frames, cut at an arbitrary place. -/
namespace Framing

variable {Frame Symbol : Type} (enc : Frame → List Symbol)

def stream (frames : List Frame) : List Symbol := frames.flatMap enc

@[simp] theorem stream_nil : stream enc [] = [] := rfl

@[simp] theorem stream_cons (frame : Frame) (frames : List Frame) :
    stream enc (frame :: frames) = enc frame ++ stream enc frames := List.flatMap_cons

@[simp] theorem stream_append (frames frames' : List Frame) :
    stream enc (frames ++ frames') = stream enc frames ++ stream enc frames' :=
  List.flatMap_append

def CutsNext (cut : List Symbol) (frames : List Frame) : Prop :=
  cut = [] ∨ ∃ frame rest, frames = frame :: rest ∧ cut <+: enc frame ∧
    cut.length < (enc frame).length

/-- What comes before the cut is whole frames and the beginning of the next one. -/
theorem split_stream {frames : List Frame} {before after : List Symbol}
    (whole : before ++ after = stream enc frames) :
    ∃ full cut rest, frames = full ++ rest ∧ before = stream enc full ++ cut ∧
      cut ++ after = stream enc rest ∧ CutsNext enc cut rest := by
  induction frames generalizing before with
  | nil =>
      obtain ⟨rfl, rfl⟩ := List.append_eq_nil_iff.mp whole
      exact ⟨[], [], [], rfl, rfl, rfl, .inl rfl⟩
  | cons frame frames ih =>
      rw [stream_cons] at whole
      rcases List.append_eq_append_iff.mp whole with
        ⟨missing, first, later⟩ | ⟨extra, rfl, later⟩
      · by_cases complete : missing = []
        · subst complete
          rw [List.append_nil] at first
          subst first
          exact ⟨[frame], [], frames, rfl, by simp, by simpa using later, .inl rfl⟩
        · have shorter : before.length < (enc frame).length := by
            rw [first, List.length_append]
            exact Nat.lt_add_of_pos_right (List.length_pos_iff.mpr complete)
          refine ⟨[], before, frame :: frames, rfl, rfl, ?_, .inr ⟨frame, frames, rfl, ?_, shorter⟩⟩
          · rw [whole, stream_cons]
          · rw [first]
            exact List.prefix_append _ _
      · obtain ⟨full, cut, rest, rfl, rfl, tail, next⟩ := ih later.symm
        exact ⟨frame :: full, cut, rest, rfl, by simp, tail, next⟩

theorem stream_eq_nil (nonempty : ∀ frame, enc frame ≠ []) {frames : List Frame}
    (empty : stream enc frames = []) : frames = [] := by
  cases frames with
  | nil => rfl
  | cons frame frames =>
      rw [stream_cons, List.append_eq_nil_iff] at empty
      exact absurd empty.1 (nonempty frame)

section Written

variable (count : Frame → Nat)

def written (frames : List Frame) : List Symbol :=
  frames.flatMap fun frame => (enc frame).take (count frame)

def Whole (frame : Frame) : Prop := (enc frame).length ≤ count frame

def Unbroken (frames : List Frame) : Prop := ∀ frame ∈ frames.dropLast, Whole enc count frame

theorem written_whole {frames : List Frame} (whole : ∀ frame ∈ frames, Whole enc count frame) :
    written enc count frames = stream enc frames := by
  induction frames with
  | nil => rfl
  | cons frame frames ih =>
      have first := List.take_of_length_le (whole frame List.mem_cons_self)
      have rest := ih fun other member => whole other (List.mem_cons_of_mem _ member)
      rw [stream_cons, ← rest]
      simp only [written, List.flatMap_cons, first]

theorem Unbroken.begins {frames : List Frame} (unbroken : Unbroken enc count frames) :
    written enc count frames <+: stream enc frames := by
  rcases List.eq_nil_or_concat frames with rfl | ⟨front, last, rfl⟩
  · exact List.prefix_rfl
  · rw [List.concat_eq_append] at *
    have whole : ∀ frame ∈ front, Whole enc count frame := by simpa [Unbroken] using unbroken
    have split : written enc count (front ++ [last]) =
        stream enc front ++ (enc last).take (count last) := by
      rw [← written_whole enc count whole]
      simp [written]
    rw [split, stream_append]
    simpa using List.take_prefix (count last) (enc last)

theorem Unbroken.cons {frame : Frame} {frames : List Frame} (whole : Whole enc count frame)
    (unbroken : Unbroken enc count frames) : Unbroken enc count (frame :: frames) := by
  intro other member
  cases frames with
  | nil => cases member
  | cons next frames =>
      rw [List.dropLast_cons_cons] at member
      rcases List.mem_cons.mp member with rfl | inside
      · exact whole
      · exact unbroken other inside

end Written

end Framing
