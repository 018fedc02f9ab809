import Phrasebook.Proofs.Related

/-! # Outcomes of computations

A computation of two parts succeeds when both parts do, and fails when the first part
fails or the second one does. A computation for each item of a list has the results of the
items in their order (`Phrasebook.Outcome.forall₂_of_mapM_eq_ok`), or it fails as it does for the
first item that it fails for (`Phrasebook.Outcome.mapM_eq_error_iff`).
-/

namespace Phrasebook.Outcome

variable {ε α β : Type}

theorem bind_eq_ok_iff {first : Except ε α} {next : α → Except ε β} {result : β} :
    first >>= next = .ok result ↔ ∃ value, first = .ok value ∧ next value = .ok result := by
  cases first with
  | ok value =>
    constructor
    · exact fun done => ⟨value, rfl, done⟩
    · rintro ⟨_, same, done⟩
      cases same
      exact done
  | error cause =>
    constructor
    · exact fun failed => by cases failed
    · rintro ⟨_, same, _⟩
      cases same

theorem bind_eq_error_iff {first : Except ε α} {next : α → Except ε β} {cause : ε} :
    first >>= next = .error cause ↔
      first = .error cause ∨ ∃ value, first = .ok value ∧ next value = .error cause := by
  cases first with
  | ok value =>
    constructor
    · exact fun failed => .inr ⟨value, rfl, failed⟩
    · rintro (failed | ⟨_, same, failed⟩)
      · cases failed
      · cases same
        exact failed
  | error other =>
    constructor
    · intro failed
      cases failed
      exact .inl rfl
    · rintro (failed | ⟨_, same, _⟩)
      · cases failed
        rfl
      · cases same

theorem mapError_eq_ok_iff {δ : Type} {outcome : Except ε α} {report : ε → δ} {result : α} :
    outcome.mapError report = .ok result ↔ outcome = .ok result := by
  cases outcome <;> simp [Except.mapError]

theorem mapError_eq_error_iff {δ : Type} {outcome : Except ε α} {report : ε → δ} {cause : δ} :
    outcome.mapError report = .error cause ↔
      ∃ fault, outcome = .error fault ∧ report fault = cause := by
  cases outcome <;> simp [Except.mapError]

/-- A computation for each item that succeeds has the results of the items, in order. -/
theorem forall₂_of_mapM_eq_ok {step : α → Except ε β} {items : List α} {results : List β}
    (done : items.mapM step = .ok results) :
    List.Forall₂ (fun item result => step item = .ok result) items results := by
  induction items generalizing results with
  | nil =>
    cases done
    exact .nil
  | cons item rest ih =>
    rw [List.mapM_cons] at done
    obtain ⟨result, first, done⟩ := bind_eq_ok_iff.mp done
    obtain ⟨others, later, made⟩ := bind_eq_ok_iff.mp done
    cases made
    exact .cons first (ih later)

theorem forall_of_mapM_eq_ok {step : α → Except ε β} {items : List α} {results : List β}
    (done : items.mapM step = .ok results) : ∀ item ∈ items, ∃ result, step item = .ok result := by
  intro item member
  obtain ⟨result, _, made⟩ := Related.exists_right (forall₂_of_mapM_eq_ok done) member
  exact ⟨result, made⟩

theorem mapM_congr {step other : α → Except ε β} {items : List α}
    (same : ∀ item ∈ items, step item = other item) : items.mapM step = items.mapM other := by
  induction items with
  | nil => rfl
  | cons item rest ih =>
    obtain ⟨first, later⟩ := List.forall_mem_cons.mp same
    rw [List.mapM_cons, List.mapM_cons, first, ih later]

/-- A computation for each item fails as it does for the first item that it fails for. -/
theorem mapM_eq_error_iff {step : α → Except ε β} {items : List α} {cause : ε} :
    items.mapM step = .error cause ↔
      ∃ before item after, items = before ++ item :: after ∧
        (∀ earlier ∈ before, ∃ result, step earlier = .ok result) ∧ step item = .error cause := by
  constructor
  · intro failed
    induction items with
    | nil => cases failed
    | cons item rest ih =>
      rw [List.mapM_cons] at failed
      rcases bind_eq_error_iff.mp failed with first | ⟨result, first, failed⟩
      · exact ⟨[], item, rest, rfl, List.forall_mem_nil _, first⟩
      · rcases bind_eq_error_iff.mp failed with later | ⟨results, _, failed⟩
        · obtain ⟨before, other, after, rfl, succeed, failed⟩ := ih later
          exact ⟨item :: before, other, after, rfl,
            List.forall_mem_cons.mpr ⟨⟨result, first⟩, succeed⟩, failed⟩
        · cases failed
  · rintro ⟨before, item, after, rfl, succeed, failed⟩
    induction before with
    | nil =>
      rw [List.nil_append, List.mapM_cons, failed]
      rfl
    | cons earlier before ih =>
      obtain ⟨⟨result, first⟩, succeed⟩ := List.forall_mem_cons.mp succeed
      rw [List.cons_append, List.mapM_cons, first]
      exact bind_eq_error_iff.mpr (.inr ⟨result, rfl, bind_eq_error_iff.mpr (.inl (ih succeed))⟩)

theorem exists_of_mapM_eq_error {step : α → Except ε β} {items : List α} {cause : ε}
    (failed : items.mapM step = .error cause) : ∃ item ∈ items, step item = .error cause := by
  obtain ⟨before, item, after, rfl, _, failed⟩ := mapM_eq_error_iff.mp failed
  exact ⟨item, List.mem_append_right before List.mem_cons_self, failed⟩

/-- A computation for each item succeeds when it does so for all of them. -/
theorem exists_mapM_eq_ok_iff {step : α → Except ε β} {items : List α} :
    (∃ results, items.mapM step = .ok results) ↔
      ∀ item ∈ items, ∃ result, step item = .ok result := by
  refine ⟨fun ⟨_, done⟩ => forall_of_mapM_eq_ok done, fun succeed => ?_⟩
  cases outcome : items.mapM step with
  | ok results => exact ⟨results, rfl⟩
  | error cause =>
    obtain ⟨item, member, failed⟩ := exists_of_mapM_eq_error outcome
    obtain ⟨result, made⟩ := succeed item member
    rw [failed] at made
    cases made

theorem mapM_eq_ok {step : α → Except ε β} {result : α → β} {items : List α}
    (succeeds : ∀ item ∈ items, step item = .ok (result item)) :
    items.mapM step = .ok (items.map result) := by
  induction items with
  | nil => rfl
  | cons item rest ih =>
    obtain ⟨first, later⟩ := List.forall_mem_cons.mp succeeds
    rw [List.mapM_cons, first, ih later]
    rfl

/-- A computation for the value under each key keeps the keys. -/
theorem mapM_keyed {κ : Type} (step : α → Except ε β) (items : List (κ × α)) :
    (items.mapM fun (key, item) => do
        let result ← step item
        pure (key, result)) =
      ((items.map Prod.snd).mapM step).map ((items.map Prod.fst).zip ·) := by
  induction items with
  | nil => rfl
  | cons head rest ih =>
    obtain ⟨key, item⟩ := head
    rw [List.mapM_cons, ih, List.map_cons, List.map_cons, List.mapM_cons]
    dsimp only
    cases step item with
    | error cause => rfl
    | ok result => cases (rest.map Prod.snd).mapM step <;> rfl

/-- A check that stands before a computation has passed when the computation
succeeds. -/
theorem guard_eq_ok_iff {fails : Prop} [Decidable fails] {cause : ε}
    {next : Unit → Except ε β} {result : β} :
    (if fails then throw cause >>= next else next ()) = .ok result ↔
      ¬ fails ∧ next () = .ok result := by
  by_cases failed : fails
  · rw [if_pos failed]
    constructor
    · exact fun done => by cases done
    · exact fun ⟨passed, _⟩ => absurd failed passed
  · rw [if_neg failed]
    exact ⟨fun done => ⟨failed, done⟩, And.right⟩

/-- A computation behind a check fails because of the check or by itself. -/
theorem guard_eq_error_iff {fails : Prop} [Decidable fails] {cause : ε}
    {next : Unit → Except ε β} {fault : ε} :
    (if fails then throw cause >>= next else next ()) = .error fault ↔
      fails ∧ fault = cause ∨ ¬ fails ∧ next () = .error fault := by
  by_cases failed : fails
  · rw [if_pos failed]
    change Except.error cause = .error fault ↔ _
    simp [failed, eq_comm]
  · simp [failed]

end Phrasebook.Outcome
