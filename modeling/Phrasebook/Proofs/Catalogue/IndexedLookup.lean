import Phrasebook.Proofs.Catalogue.Following

/-! # An index and a last position

A look-up can ask for a template of an entry in two ways, by an index beside the address or by
one more position at its end. Where the address leads to an entry with positions, or nowhere, the
two are the same look-up in every catalogue (`Phrasebook.Catalogue.find_some_eq_find_child`). They
differ only where the address leads to a scalar or to a namespace: there the index is a wrong
shape, and that is the only wrong shape that a look-up with an index has
(`Phrasebook.Catalogue.find_some_eq_misshapen_iff`). In two editions the look-ups therefore agree
unless one with an index meets such a place (`Phrasebook.Edition.find_index_agrees`).
-/

namespace Phrasebook

/-- The shapes whose templates stand at positions. -/
def Shape.HasPositions : Shape → Prop
  | .list => True
  | .indexedMap => True
  | .scalar => False
  | .namespaced => False

instance : DecidablePred Shape.HasPositions
  | .list => .isTrue trivial
  | .indexedMap => .isTrue trivial
  | .scalar => .isFalse id
  | .namespaced => .isFalse id

namespace Node

theorem entryAt_some_of_hasPositions {node : Node} (positions : node.shape.HasPositions)
    (index : Position) :
    node.entryAt (some index) = node.step (.position index) >>= fun next => next.entryAt none := by
  cases node with
  | branch children => cases positions
  | entry found =>
    cases found with
    | scalar template => cases positions
    | list items =>
      simp only [entryAt, step, Entry.element?]
      cases items[index.toNat]? <;> rfl
    | indexed map =>
      simp only [entryAt, step, Entry.element?]
      cases map.atPosition? index <;> rfl

theorem entryAt_some_of_not_hasPositions {node : Node} (positions : ¬ node.shape.HasPositions)
    (index : Position) : node.entryAt (some index) = .error (.misshapen .list node.shape) := by
  cases node with
  | branch children => rfl
  | entry found =>
    cases found with
    | scalar template => rfl
    | list items => exact absurd trivial positions
    | indexed map => exact absurd trivial positions

/-- A place with positions is never a wrong shape for an index. -/
theorem entryAt_some_ne_misshapen {node : Node} (positions : node.shape.HasPositions)
    (index : Position) (expected found : Shape) :
    node.entryAt (some index) ≠ .error (.misshapen expected found) := by
  cases node with
  | branch children => cases positions
  | entry entry =>
    have notScalar : entry.shape ≠ .scalar := by
      intro scalar
      rw [shape, scalar] at positions
      exact positions
    rw [entryAt_some_of_item? entry index notScalar]
    cases entry.item? (.position index) <;> simp

end Node

namespace Catalogue

variable {catalogue : Catalogue} {address : Address}

/-- An address leads to a place of a catalogue without positions, a scalar or a namespace. -/
def Unindexed (catalogue : Catalogue) (address : Address) (shape : Shape) : Prop :=
  ∃ node, (Node.branch catalogue.root).follow? address.steps = some node ∧ node.shape = shape ∧
    ¬ shape.HasPositions

theorem find_child (index : Position) :
    catalogue.find (address.child index) none =
      address.steps.foldlM Node.step (.branch catalogue.root) >>= fun node =>
        node.step (.position index) >>= fun next => next.entryAt none := by
  rw [find, Address.child, List.foldlM_append, bind_assoc]
  refine bind_congr fun node => ?_
  rw [List.foldlM_cons, bind_assoc]
  rfl

/-- **One look-up, written twice.** An index asks a catalogue for what a last position asks it
for, unless the place of the address has no positions. -/
theorem find_some_eq_find_child (indexed : ∀ shape, ¬ catalogue.Unindexed address shape)
    (index : Position) :
    catalogue.find address (some index) = catalogue.find (address.child index) none := by
  rw [find_child]
  cases reached : (Node.branch catalogue.root).follow? address.steps with
  | none =>
    obtain ⟨miss, failed, _⟩ := Node.foldlM_step_of_follow?_eq_none reached
    rw [find, failed]
    rfl
  | some node =>
    rw [find_of_follow?_eq_some reached, Node.foldlM_step_of_follow?_eq_some reached]
    by_cases positions : node.shape.HasPositions
    · exact Node.entryAt_some_of_hasPositions positions index
    · exact absurd ⟨node, reached, rfl, positions⟩ (indexed node.shape)

theorem Unindexed.find_some {shape : Shape} (unindexed : catalogue.Unindexed address shape)
    (index : Position) :
    catalogue.find address (some index) = .error (.misshapen .list shape) := by
  obtain ⟨node, reached, rfl, positions⟩ := unindexed
  rw [find_of_follow?_eq_some reached, Node.entryAt_some_of_not_hasPositions positions]

theorem find_some_eq_misshapen_iff {index : Position} {expected found : Shape} :
    catalogue.find address (some index) = .error (.misshapen expected found) ↔
      expected = .list ∧ catalogue.Unindexed address found := by
  constructor
  · intro misshapen
    cases reached : (Node.branch catalogue.root).follow? address.steps with
    | none =>
      obtain ⟨miss, failed, allows⟩ := find_of_follow?_eq_none reached (some index)
      rw [misshapen] at failed
      cases failed
      exact allows.elim
    | some node =>
      rw [find_of_follow?_eq_some reached] at misshapen
      by_cases positions : node.shape.HasPositions
      · exact absurd misshapen (Node.entryAt_some_ne_misshapen positions index expected found)
      · rw [Node.entryAt_some_of_not_hasPositions positions] at misshapen
        cases misshapen
        exact ⟨rfl, node, reached, rfl, positions⟩
  · rintro ⟨rfl, unindexed⟩
    exact unindexed.find_some index

theorem allowsFallback_of_find_some (indexed : ∀ shape, ¬ catalogue.Unindexed address shape)
    {index : Position} {miss : Miss} (missed : catalogue.find address (some index) = .error miss) :
    miss.AllowsFallback := by
  cases miss with
  | misshapen expected found =>
    exact absurd (find_some_eq_misshapen_iff.mp missed).2 (indexed found)
  | absent => trivial
  | outOfRange position => trivial

end Catalogue

namespace Miss

theorem AllowsFallback.orElse {first second : Miss} (allows : first.AllowsFallback)
    (secondAllows : second.AllowsFallback) : (first.orElse second).AllowsFallback := by
  cases second with
  | misshapen expected found => exact secondAllows.elim
  | absent => cases first <;> trivial
  | outOfRange index => cases first <;> trivial

theorem orElse_eq_misshapen_iff {first second : Miss} (allows : first.AllowsFallback)
    {expected found : Shape} :
    first.orElse second = .misshapen expected found ↔ second = .misshapen expected found := by
  cases first with
  | misshapen _ _ => exact allows.elim
  | absent => cases second <;> simp [Miss.orElse]
  | outOfRange index => cases second <;> simp [Miss.orElse]

end Miss

namespace Edition

section

variable {wanted fallback : Edition} {address : Address} {index : Option Position}

theorem find_of_own {entry : Entry} (own : wanted.catalogue.find address index = .ok entry) :
    wanted.find fallback address index = .ok ⟨entry, wanted.locale, false⟩ := by
  rw [find, own]

/-- The miss of the wanted edition stands when it is a wrong shape or there is no other
edition. -/
theorem find_of_final {miss : Miss} (missed : wanted.catalogue.find address index = .error miss)
    (final : miss.AllowsFallback → wanted.locale = fallback.locale) :
    wanted.find fallback address index = .error (miss.error address) := by
  cases miss with
  | misshapen expected found => rw [find, missed, Miss.error]
  | absent => simp only [find, missed, final trivial, if_true]
  | outOfRange index => simp only [find, missed, final trivial, if_true]

theorem find_of_goesOn {miss : Miss} (missed : wanted.catalogue.find address index = .error miss)
    (allows : miss.AllowsFallback) (different : wanted.locale ≠ fallback.locale) :
    wanted.find fallback address index = match fallback.catalogue.find address index with
      | .ok entry => .ok ⟨entry, fallback.locale, true⟩
      | .error second => .error ((miss.orElse second).error address) := by
  cases other : fallback.catalogue.find address index <;> cases miss with
  | misshapen expected found => exact allows.elim
  | absent => simp only [find, missed, different, if_false, other]
  | outOfRange position => simp only [find, missed, different, if_false, other]

/-- **The two ways to an error.** A look-up in two editions fails with the miss of the wanted one
when that is a wrong shape or there is no other edition, and else with what the misses of both
come to. -/
theorem find_eq_error_iff {error : Error} :
    wanted.find fallback address index = .error error ↔ ∃ miss, error = miss.error address ∧
      ((wanted.catalogue.find address index = .error miss ∧
          (miss.AllowsFallback → wanted.locale = fallback.locale)) ∨
        ∃ first second, wanted.catalogue.find address index = .error first ∧
          first.AllowsFallback ∧ wanted.locale ≠ fallback.locale ∧
          fallback.catalogue.find address index = .error second ∧
          miss = first.orElse second) := by
  constructor
  · intro failed
    cases own : wanted.catalogue.find address index with
    | ok entry =>
      rw [find_of_own own] at failed
      cases failed
    | error miss =>
      by_cases final : miss.AllowsFallback → wanted.locale = fallback.locale
      · rw [find_of_final own final] at failed
        cases failed
        exact ⟨miss, rfl, .inl ⟨rfl, final⟩⟩
      · obtain ⟨allows, different⟩ := Classical.not_imp.mp final
        rw [find_of_goesOn own allows different] at failed
        cases other : fallback.catalogue.find address index with
        | ok entry =>
          rw [other] at failed
          cases failed
        | error second =>
          rw [other] at failed
          cases failed
          exact ⟨_, rfl, .inr ⟨miss, second, rfl, allows, different, rfl, rfl⟩⟩
  · rintro ⟨miss, rfl, ⟨own, final⟩ | ⟨first, second, own, allows, different, other, rfl⟩⟩
    · exact find_of_final own final
    · rw [find_of_goesOn own allows different, other]

/-- A look-up goes on to the fallback: the wanted edition misses without a wrong shape, and the
fallback is another one. -/
def FallsBack (wanted fallback : Edition) (address : Address) (index : Option Position) : Prop :=
  (∃ miss, wanted.catalogue.find address index = .error miss ∧ miss.AllowsFallback) ∧
    wanted.locale ≠ fallback.locale

theorem find_eq_unexpectedShape_iff {path : String} {expected found : Shape} :
    wanted.find fallback address index = .error (.unexpectedShape path expected found) ↔
      path = address.text ∧
        (wanted.catalogue.find address index = .error (.misshapen expected found) ∨
          wanted.FallsBack fallback address index ∧
            fallback.catalogue.find address index = .error (.misshapen expected found)) := by
  rw [find_eq_error_iff]
  constructor
  · rintro ⟨miss, same, way⟩
    cases miss <;> cases same
    refine ⟨rfl, ?_⟩
    rcases way with ⟨own, _⟩ | ⟨first, second, own, allows, different, other, same⟩
    · exact .inl own
    · rw [(Miss.orElse_eq_misshapen_iff allows).mp same.symm] at other
      exact .inr ⟨⟨⟨first, own, allows⟩, different⟩, other⟩
  · rintro ⟨rfl, own | ⟨⟨⟨first, own, allows⟩, different⟩, other⟩⟩
    · exact ⟨.misshapen expected found, rfl, .inl ⟨own, False.elim⟩⟩
    · exact ⟨.misshapen expected found, rfl, .inr ⟨first, _, own, allows, different, other,
        ((Miss.orElse_eq_misshapen_iff allows).mpr rfl).symm⟩⟩

end

/-- The results of looking up one address and of looking up another one: the same finding, or the
same kind of miss with the same index, each told of its own address. -/
inductive SameAnswer (address other : Address) :
    Except Error Finding → Except Error Finding → Prop
  | found (finding : Finding) : SameAnswer address other (.ok finding) (.ok finding)
  | missingKey :
      SameAnswer address other (.error (.missingKey address.text)) (.error (.missingKey other.text))
  | indexOutOfRange (index : Position) :
      SameAnswer address other (.error (.indexOutOfRange address.text index))
        (.error (.indexOutOfRange other.text index))

theorem sameAnswer_of_allowsFallback {miss : Miss} (allows : miss.AllowsFallback)
    (address other : Address) :
    SameAnswer address other (.error (miss.error address)) (.error (miss.error other)) := by
  cases miss with
  | absent => exact .missingKey
  | outOfRange index => exact .indexOutOfRange index
  | misshapen expected found => exact allows.elim

/-- Where neither catalogue that is asked has a place without positions, an index and a last
position have the same answer. -/
theorem sameAnswer_child {wanted fallback : Edition} {address : Address} {index : Position}
    (ownIndexed : ∀ shape, ¬ wanted.catalogue.Unindexed address shape)
    (otherIndexed : wanted.FallsBack fallback address (some index) →
      ∀ shape, ¬ fallback.catalogue.Unindexed address shape) :
    SameAnswer address (address.child index) (wanted.find fallback address (some index))
      (wanted.find fallback (address.child index) none) := by
  have own := Catalogue.find_some_eq_find_child ownIndexed index
  cases missed : wanted.catalogue.find address (some index) with
  | ok entry =>
    rw [find_of_own missed, find_of_own (own.symm.trans missed)]
    exact .found _
  | error miss =>
    have childMissed := own.symm.trans missed
    have allows := Catalogue.allowsFallback_of_find_some ownIndexed missed
    by_cases alone : wanted.locale = fallback.locale
    · rw [find_of_final missed fun _ => alone, find_of_final childMissed fun _ => alone]
      exact sameAnswer_of_allowsFallback allows _ _
    · have otherIndexed := otherIndexed ⟨⟨miss, missed, allows⟩, alone⟩
      rw [find_of_goesOn missed allows alone, find_of_goesOn childMissed allows alone,
        ← Catalogue.find_some_eq_find_child otherIndexed]
      cases otherMissed : fallback.catalogue.find address (some index) with
      | ok entry => exact .found _
      | error second =>
        have secondAllows := Catalogue.allowsFallback_of_find_some otherIndexed otherMissed
        exact sameAnswer_of_allowsFallback (allows.orElse secondAllows) _ _

/-- **An index and a last position.** A look-up with an index fails because of a wrong shape
exactly when the address leads to a place without positions, in the wanted edition or in the
fallback when the look-up goes on to it. Else it agrees with the look-up of the address with the
position at its end: both have the same entry from the same edition, both find no key, or both
have the same index out of range. -/
theorem find_index_agrees (wanted fallback : Edition) (address : Address) (index : Position) :
    (∀ path expected found,
        wanted.find fallback address (some index) = .error (.unexpectedShape path expected found) ↔
          path = address.text ∧ expected = .list ∧
            (wanted.catalogue.Unindexed address found ∨
              wanted.FallsBack fallback address (some index) ∧
                fallback.catalogue.Unindexed address found)) ∧
      ((∃ path expected found, wanted.find fallback address (some index) =
          .error (.unexpectedShape path expected found)) ∨
        SameAnswer address (address.child index) (wanted.find fallback address (some index))
          (wanted.find fallback (address.child index) none)) := by
  have misshapen_iff (path : String) (expected found : Shape) :
      wanted.find fallback address (some index) = .error (.unexpectedShape path expected found) ↔
        path = address.text ∧ expected = .list ∧
          (wanted.catalogue.Unindexed address found ∨
            wanted.FallsBack fallback address (some index) ∧
              fallback.catalogue.Unindexed address found) := by
    rw [find_eq_unexpectedShape_iff, Catalogue.find_some_eq_misshapen_iff,
      Catalogue.find_some_eq_misshapen_iff]
    grind
  refine ⟨misshapen_iff, ?_⟩
  by_cases misshapen : ∃ path expected found, wanted.find fallback address (some index) =
      .error (.unexpectedShape path expected found)
  · exact .inl misshapen
  · refine .inr (sameAnswer_child (fun shape unindexed => ?_) fun fallsBack shape unindexed => ?_)
    · exact misshapen ⟨_, _, _, (misshapen_iff _ _ _).mpr ⟨rfl, rfl, .inl unindexed⟩⟩
    · exact misshapen ⟨_, _, _, (misshapen_iff _ _ _).mpr ⟨rfl, rfl, .inr ⟨fallsBack, unindexed⟩⟩⟩

end Edition

end Phrasebook
