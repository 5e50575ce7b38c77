import Mathlib.Data.List.Induction
import ClassSyntax.Proofs.Frontier.FurthestFailure

/-!
# The frontier of a log

The frontier is updated failure by failure. What it holds in the end is a function of the log: the
largest position, and what was missing there, each thing once and in order.

* `Frontier.position_noteAll_eq_max`, `Frontier.expected_noteAll`: position and content of the frontier.
* `Frontier.nodup_expected_noteAll`: nothing is held twice.
* `Frontier.noteAll_noteAll`: failures that were noted before add nothing.
-/

namespace ClassSyntax

/-! ## The frontier of a log -/

namespace Frontier

/-- The things missing at a place, each once and in the order of the log. -/
def missingAt (place : Nat) (log : List Failure) : List String :=
  ((log.filter fun failure => failure.position = place).map Failure.expected).eraseDups

/-- The frontier is the largest position of the log, and the first token for an empty log. -/
theorem position_noteAll_eq_max (log : List Failure) :
    (start.noteAll log).position = (log.map Failure.position).max?.getD 0 := by
  by_cases missed : log = []
  · subst missed
    rfl
  · obtain ⟨⟨failure, member, position⟩, furthest⟩ := position_noteAll missed
    have largest : (log.map Failure.position).max? = some (start.noteAll log).position := by
      rw [List.max?_eq_some_iff]
      refine ⟨List.mem_map.mpr ⟨failure, member, position⟩, fun place listed => ?_⟩
      obtain ⟨other, inside, rfl⟩ := List.mem_map.mp listed
      exact furthest other inside
    rw [largest, Option.getD_some]

theorem missingAt_concat (place : Nat) (log : List Failure) (failure : Failure) :
    missingAt place (log ++ [failure]) =
      if failure.position = place ∧ failure.expected ∉ missingAt place log then
        missingAt place log ++ [failure.expected]
      else missingAt place log := by
  unfold missingAt
  rw [List.filter_append, List.map_append, List.eraseDups_append]
  by_cases here : failure.position = place
  · by_cases known : failure.expected ∈
        (log.filter fun failure => failure.position = place).map Failure.expected
    · simp [here, known, List.removeAll]
    · simp [here, known, List.removeAll, List.eraseDups_cons]
  · simp [here, List.removeAll]

theorem missingAt_of_before {place : Nat} {log : List Failure}
    (before : ∀ failure ∈ log, failure.position < place) : missingAt place log = [] := by
  unfold missingAt
  rw [List.filter_eq_nil_iff.mpr, List.map_nil, List.eraseDups_nil]
  intro failure member
  simpa using Nat.ne_of_lt (before failure member)

theorem noteAll_append (frontier : Frontier) (log more : List Failure) :
    frontier.noteAll (log ++ more) = (frontier.noteAll log).noteAll more :=
  List.foldl_append

theorem noteAll_concat (frontier : Frontier) (log : List Failure) (failure : Failure) :
    frontier.noteAll (log ++ [failure]) = (frontier.noteAll log).note failure :=
  frontier.noteAll_append log [failure]

/-- The frontier holds what was missing at the furthest point. -/
theorem expected_noteAll (log : List Failure) :
    (start.noteAll log).expected = missingAt (start.noteAll log).position log := by
  induction log using List.reverseRecOn with
  | nil => rfl
  | append_singleton log failure ih =>
      have behind := (start.position_le_noteAll log).2
      rw [noteAll_concat]
      unfold note
      split
      · rename_i further
        have before := missingAt_of_before fun other member =>
          Nat.lt_of_le_of_lt (behind other member) further
        rw [missingAt_concat, before, if_pos ⟨rfl, List.not_mem_nil⟩, List.nil_append]
      · split
        · rename_i new
          rw [missingAt_concat, ← ih, if_pos new]
        · rename_i old
          rw [missingAt_concat, ← ih, if_neg old]

/-- Nothing is held twice. -/
theorem nodup_expected_noteAll (log : List Failure) : (start.noteAll log).expected.Nodup := by
  induction log using List.reverseRecOn with
  | nil => exact List.nodup_nil
  | append_singleton log failure ih =>
      rw [noteAll_concat]
      unfold note
      split
      · exact List.pairwise_singleton _ _
      · split
        · rename_i new
          refine List.nodup_append.mpr ⟨ih, List.pairwise_singleton _ _, ?_⟩
          intro known member other same
          rw [List.mem_singleton.mp same]
          exact fun equal => new.2 (equal ▸ member)
        · exact ih

theorem expected_noteAll_ne_nil {log : List Failure} (missed : log ≠ []) :
    (start.noteAll log).expected ≠ [] := by
  obtain ⟨⟨failure, member, position⟩, -⟩ := position_noteAll missed
  rw [expected_noteAll]
  refine List.ne_nil_of_mem (a := failure.expected) (List.mem_eraseDups.mpr ?_)
  exact List.mem_map.mpr ⟨failure, List.mem_filter.mpr ⟨member, by simpa using position⟩, rfl⟩

/-! ## Failures that were noted before -/

/-- The failure is behind the frontier, or what is missing there is held already. -/
def Noted (frontier : Frontier) (failure : Failure) : Prop :=
  failure.position < frontier.position ∨
    failure.position = frontier.position ∧ failure.expected ∈ frontier.expected

theorem note_eq_self {frontier : Frontier} {failure : Failure} (noted : frontier.Noted failure) :
    frontier.note failure = frontier := by
  unfold note
  rcases noted with behind | ⟨here, known⟩
  · rw [if_neg (Nat.not_lt.mpr (Nat.le_of_lt behind)),
      if_neg fun new => Nat.ne_of_lt behind new.1]
  · rw [if_neg (here ▸ Nat.lt_irrefl _), if_neg fun new => new.2 known]

theorem noted_note (frontier : Frontier) (failure : Failure) :
    (frontier.note failure).Noted failure := by
  unfold note
  split
  · exact .inr ⟨rfl, List.mem_singleton_self _⟩
  · rename_i near
    split
    · rename_i new
      exact .inr ⟨new.1, List.mem_append_right _ (List.mem_singleton_self _)⟩
    · rename_i old
      rcases Nat.eq_or_lt_of_le (Nat.le_of_not_lt near) with here | behind
      · exact .inr ⟨here, Classical.not_not.mp fun new => old ⟨here, new⟩⟩
      · exact .inl behind

theorem Noted.note {frontier : Frontier} {failure : Failure} (noted : frontier.Noted failure)
    (other : Failure) : (frontier.note other).Noted failure := by
  unfold Frontier.note
  split
  · rename_i further
    refine .inl ?_
    rcases noted with behind | ⟨here, -⟩
    · exact Nat.lt_trans behind further
    · exact here ▸ further
  · split
    · exact noted.imp id fun ⟨here, known⟩ => ⟨here, List.mem_append_left _ known⟩
    · exact noted

theorem Noted.noteAll {frontier : Frontier} {failure : Failure} (noted : frontier.Noted failure)
    (log : List Failure) : (frontier.noteAll log).Noted failure := by
  induction log generalizing frontier with
  | nil => exact noted
  | cons other log ih => exact ih (noted.note other)

theorem noted_noteAll (frontier : Frontier) (log : List Failure) :
    ∀ failure ∈ log, (frontier.noteAll log).Noted failure := by
  induction log generalizing frontier with
  | nil => exact nofun
  | cons failure log ih =>
      exact List.forall_mem_cons.mpr
        ⟨(frontier.noted_note failure).noteAll log, ih (frontier.note failure)⟩

theorem noteAll_eq_self {frontier : Frontier} {log : List Failure}
    (noted : ∀ failure ∈ log, frontier.Noted failure) : frontier.noteAll log = frontier := by
  induction log with
  | nil => rfl
  | cons failure log ih =>
      rw [List.forall_mem_cons] at noted
      unfold noteAll at ih ⊢
      rw [List.foldl_cons, note_eq_self noted.1]
      exact ih noted.2

/-- To note the same failures once more changes nothing. -/
theorem noteAll_noteAll (frontier : Frontier) (log : List Failure) :
    (frontier.noteAll log).noteAll log = frontier.noteAll log :=
  noteAll_eq_self (frontier.noted_noteAll log)

end Frontier

end ClassSyntax
