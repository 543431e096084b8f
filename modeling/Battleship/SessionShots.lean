import Battleship.FieldFleet
import Battleship.GameSession

/-! The shot of a turn: `_register_shot` fires until a shot is accepted, at the
move the player has sent and then at random points. -/
namespace Battleship

namespace Session

/-- The points that `::rand()` gives, two numbers each. -/
def drawnPoints : List Nat → List Point
  | x :: y :: draws => randomPoint x y :: drawnPoints draws
  | _ => []

/-- The loop ends with one accepted shot: at the first point if that is untried,
else at a drawn one. The refused shots change nothing. -/
theorem shotLoop_spec {field field' : GameField} {shotRes : CellState} {draws : List Nat}
    {first : Point} (done : shotLoop field first draws = some (shotRes, field')) :
    ∃ point, field.Untried point ∧ field.registerShot point = (shotRes, field') ∧
      (field.Untried first → point = first) ∧
      (¬ field.Untried first → point ∈ drawnPoints draws) := by
  fun_induction shotLoop field first draws with
  | case1 field first x y draws shot refused ih =>
      have tried : ¬ field.Untried first := by
        rw [← GameField.registerShot_result]
        simpa using refused
      have unchanged : shot = (.empty, field) := GameField.registerShot_refused field first tried
      rw [unchanged] at ih done
      obtain ⟨point, untried, accepted, atFirst, atRandom⟩ := ih done
      refine ⟨point, untried, accepted, fun fits => absurd fits tried, fun _ => ?_⟩
      by_cases fits : field.Untried (randomPoint x y)
      · exact atFirst fits ▸ List.mem_cons_self
      · exact List.mem_cons_of_mem _ (atRandom fits)
  | case2 field first x y draws shot accepted =>
      have fits : field.Untried first := (GameField.registerShot_result field first).mp accepted
      exact ⟨first, fits, Option.some.inj done, fun _ => rfl, fun tried => absurd fits tried⟩
  | case3 => cases done

/-- The loop ends as soon as an untried point is tried; one more point is drawn then. -/
theorem shotLoop_returns {field : GameField} {draws : List Nat} {first point : Point}
    (drawn : point ∈ (first :: drawnPoints draws).dropLast) (untried : field.Untried point) :
    shotLoop field first draws ≠ none := by
  fun_induction shotLoop field first draws with
  | case1 field first x y draws shot refused ih =>
      have tried : ¬ field.Untried first := by
        rw [← GameField.registerShot_result]
        simpa using refused
      have unchanged : shot = (.empty, field) := GameField.registerShot_refused field first tried
      rw [unchanged] at ih ⊢
      rcases List.mem_cons.mp drawn with rfl | later
      · exact absurd untried tried
      · exact ih later untried
  | case2 => simp
  | case3 draws field first short =>
      match draws, short with
      | [], _ => simp [drawnPoints] at drawn
      | [_], _ => simp [drawnPoints] at drawn
      | x :: y :: draws, short => exact absurd rfl (short x y draws)

theorem firstTry_spec {session : Session} {draws rest : List Nat} {first : Point}
    (tries : session.firstTry draws = some (first, rest)) :
    (session.lastShot ≠ noShot ∧ first = session.lastShot ∧ rest = draws) ∨
      (session.lastShot = noShot ∧
        ∃ x y, first = randomPoint x y ∧ draws = x :: y :: rest) := by
  unfold firstTry hasLastShot at tries
  split at tries
  · rename_i sent
    obtain ⟨rfl, rfl⟩ := Prod.mk.inj (Option.some.inj tries)
    exact Or.inl ⟨of_decide_eq_true sent, rfl, rfl⟩
  · rename_i missing
    have missing : session.lastShot = noShot := by simpa using missing
    split at tries
    · obtain ⟨rfl, rfl⟩ := Prod.mk.inj (Option.some.inj tries)
      exact Or.inr ⟨missing, _, _, rfl, rfl⟩
    · cases tries

/-- What `_register_shot` does: one accepted shot at the field of the player whose
turn it is not, at the move that is set if it is one and lies on an untried cell,
else at a drawn point. The other field is left alone and no move is set any more. -/
theorem registerShot_spec {session session' : Session} {draws : List Nat} {shotRes : CellState}
    (shot : session.registerShot draws = some (shotRes, session')) :
    ∃ point field, (session.fields session.enemyIdx).Untried point ∧
      (session.fields session.enemyIdx).registerShot point = (shotRes, field) ∧
      session' = { session with
        fields := Function.update session.fields session.enemyIdx field, lastShot := noShot } ∧
      (session.lastShot ≠ noShot → (session.fields session.enemyIdx).Untried session.lastShot →
        point = session.lastShot) ∧
      (session.lastShot = noShot ∨
        ¬ (session.fields session.enemyIdx).Untried session.lastShot →
        point ∈ drawnPoints draws) := by
  unfold registerShot at shot
  split at shot
  · cases shot
  rename_i first rest tries
  split at shot
  · cases shot
  rename_i field loop
  obtain ⟨point, untried, accepted, atFirst, atRandom⟩ := shotLoop_spec loop
  obtain ⟨rfl, rfl⟩ := Prod.mk.inj (Option.some.inj shot)
  refine ⟨point, field, untried, accepted, rfl, fun sent fits => ?_, fun missing => ?_⟩
  · rcases firstTry_spec tries with ⟨_, rfl, rfl⟩ | ⟨none, _⟩
    · exact atFirst fits
    · exact absurd none sent
  · rcases firstTry_spec tries with ⟨sent, rfl, rfl⟩ | ⟨_, x, y, rfl, rfl⟩
    · exact atRandom (missing.resolve_left sent)
    · by_cases fits : (session.fields session.enemyIdx).Untried (randomPoint x y)
      · exact atFirst fits ▸ List.mem_cons_self
      · exact List.mem_cons_of_mem _ (atRandom fits)

theorem registerShot_fields {session session' : Session} {draws : List Nat} {shotRes : CellState}
    (shot : session.registerShot draws = some (shotRes, session')) :
    session'.fields ≠ session.fields := by
  obtain ⟨point, field, untried, accepted, rfl, _⟩ := registerShot_spec shot
  intro same
  have kept : field = session.fields session.enemyIdx := by
    simpa using congrFun same session.enemyIdx
  have cell := GameField.registerShot_cell _ point untried
  rw [accepted, kept] at cell
  obtain ⟨_, noHit, noMiss⟩ := GameField.untried_iff.mp untried
  exact cell.elim noHit noMiss

/-- The points `_register_shot` tries in turn. -/
def tries (session : Session) (draws : List Nat) : List Point :=
  if session.hasLastShot then session.lastShot :: drawnPoints draws else drawnPoints draws

theorem registerShot_returns {session : Session} {draws : List Nat} {point : Point}
    (drawn : point ∈ (session.tries draws).dropLast)
    (untried : (session.fields session.enemyIdx).Untried point) :
    session.registerShot draws ≠ none := by
  have loop (first : Point) (rest : List Nat) (starts : session.firstTry draws = some (first, rest))
      (same : session.tries draws = first :: drawnPoints rest) :
      session.registerShot draws ≠ none := by
    rw [same] at drawn
    have returns := shotLoop_returns drawn untried
    unfold registerShot
    rw [starts]
    cases ended : shotLoop (session.fields session.enemyIdx) first rest with
    | none => exact absurd ended returns
    | some shot => simp [ended]
  by_cases sent : session.hasLastShot = true
  · exact loop _ _ (by simp [firstTry, sent]; exact ⟨rfl, rfl⟩) (by simp [tries, sent])
  · match draws with
    | [] => simp [tries, sent, drawnPoints] at drawn
    | [_] => simp [tries, sent, drawnPoints] at drawn
    | x :: y :: draws =>
        exact loop (randomPoint x y) draws (by simp [firstTry, sent])
          (by simp [tries, sent, drawnPoints])

end Session
end Battleship
