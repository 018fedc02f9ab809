import Mathlib.Data.List.Nodup
import Phrasebook.Proofs.Catalogue.WellFormed
import Phrasebook.Proofs.Related

/-! # What the check accepts and what it reports

The check follows the readings of a document. What it accepts is valid
(`Phrasebook.Catalogue.valid_of_nodeOf`); what it reports is wrong at the place that it names
(`Phrasebook.Catalogue.flawed_of_nodeOf`). As no document with a flaw is a catalogue, the check
accepts exactly the catalogues
(`Phrasebook.Catalogue.accepts_isCatalogue_and_reports_flaw`).
-/

namespace Phrasebook

open Document (NameFlawed SlotFlawed Slotted)

namespace Catalogue

theorem slotted_of_entriesOf {place : String} {members : List (String × Document)}
    {entries : List (IndexedMap.Key × Template)}
    (built : entriesOf place [] members = .ok entries) : Slotted members := by
  obtain ⟨added, same, writes, keys⟩ := adds_of_entriesOf built
  rw [List.nil_append] at same
  subst same
  have wellFormed := wellFormed_of_entriesOf ⟨List.forall_mem_nil _, .nil⟩ built
  refine ⟨keys, fun member present => ?_, fun member present numeral => ?_, ?_⟩
  · obtain ⟨slot, _, written⟩ := Related.exists_right writes present
    exact ⟨_, written.value⟩
  · obtain ⟨⟨key, template⟩, _, written⟩ := Related.exists_right writes present
    have reading := written.key
    rw [IndexedMap.readingOf_of_numeral numeral] at reading
    cases key with
    | name text => cases reading
    | position index =>
      rw [← Sum.inl.inj reading]
      exact index.toNat_lt
  · have distinct : (entries.map Prod.fst).Nodup := wellFormed.distinct
    have readings := List.Nodup.map IndexedMap.Key.reading_injective distinct
    rw [List.map_map] at readings
    rw [Related.map_eq writes fun member slot written => written.key.symm]
    exact readings

/-- **Accepted values are valid.** -/
theorem valid_of_nodeOf {document : Document} {place : String} {node : Node}
    (built : nodeOf place document = .ok node) : document.Valid := by
  induction document using Document.inductionOnReading generalizing place node with
  | text value => exact .text value
  | sequence items =>
    obtain ⟨templates, listed, _⟩ := Outcome.bind_eq_ok_iff.mp built
    rw [eq_of_templatesOf listed]
    refine .sequence fun item member => ?_
    obtain ⟨template, _, rfl⟩ := List.mem_map.mp member
    exact ⟨template.text, rfl⟩
  | literal kind =>
    rw [nodeOf] at built
    cases built
  | indexed reads =>
    rw [nodeOf_of_readsIndexed reads] at built
    obtain ⟨entries, listed, _⟩ := Outcome.bind_eq_ok_iff.mp built
    exact .indexed reads (slotted_of_entriesOf listed)
  | namespaced reads ih =>
    rw [nodeOf_of_readsNamespace reads] at built
    obtain ⟨children, listed, _⟩ := Outcome.bind_eq_ok_iff.mp built
    have joins := joins_of_childrenOf listed
    refine .namespaced reads joins.keyed fun member present => ?_
    obtain ⟨own, made, _⟩ := joins.own member present
    exact ih member present made

/-- What is reported of a member of an indexed map is wrong with it. -/
theorem slotFlawed_of_entriesOf {place : String} {done rest : List (String × Document)}
    {earlier : List (IndexedMap.Key × Template)} {fault : Fault}
    (writes : List.Forall₂ Document.WritesSlot done earlier)
    (failed : entriesOf place earlier rest = .error fault) :
    ∃ key flaw, SlotFlawed (done ++ rest) key flaw ∧ fault = flaw.at (Address.under place key) := by
  induction rest generalizing done earlier with
  | nil => cases failed
  | cons member rest ih =>
    have present : member ∈ done ++ member :: rest :=
      List.mem_append_right _ List.mem_cons_self
    rcases entriesOf_cons_eq_error failed with
      ⟨reason, flawed, same⟩ | ⟨numeral, large, same⟩ | ⟨⟨slot, taken, alike⟩, same⟩ |
      ⟨noText, same⟩ | ⟨slot, written, failed⟩
    · exact ⟨member.1, .invalid reason, .form present flawed, same⟩
    · exact ⟨member.1, .invalid .largeIndex, .large present numeral large, same⟩
    · -- the entry in the way was written by a member that has been read before
      obtain ⟨other, before, wrote⟩ := Related.exists_left writes taken
      have again : IndexedMap.readingOf member.1 ∈
          done.map fun member => IndexedMap.readingOf member.1 :=
        List.mem_map.mpr ⟨other, before, wrote.key.symm.trans alike⟩
      exact ⟨member.1, .repeated, .repeated rfl again, same⟩
    · exact ⟨member.1, .invalid (.noText member.2.kind), .noText present noText, same⟩
    · have further := ih (List.rel_append writes (.cons written .nil)) failed
      rw [List.append_assoc] at further
      exact further

/-- What is reported of a member of a namespace is wrong with its key or inside its value. -/
theorem nameFlawed_of_childrenOf {place : String} {done rest : List (String × Document)}
    {earlier : Namespace} {fault : Fault}
    (listed : ∀ name, (earlier.get? name).isSome = true ↔ name ∈ done.map Prod.fst)
    (failed : childrenOf place earlier rest = .error fault) :
    (∃ key flaw, NameFlawed (done ++ rest) key flaw ∧
        fault = flaw.at (Address.under place key)) ∨
      ∃ member ∈ done ++ rest, Address.IsKey member.1 ∧
        nodeOf (Address.under place member.1) member.2 = .error fault := by
  induction rest generalizing done earlier with
  | nil =>
    rw [childrenOf] at failed
    cases failed
  | cons member rest ih =>
    have present : member ∈ done ++ member :: rest :=
      List.mem_append_right _ List.mem_cons_self
    rcases childrenOf_cons_eq_error failed with
      ⟨reason, flawed, same⟩ | ⟨taken, same⟩ | ⟨valid, inside⟩ | ⟨node, failed⟩
    · exact .inl ⟨member.1, .invalid reason, .form present flawed, same⟩
    · exact .inl ⟨member.1, .repeated, .repeated rfl ((listed member.1).mp taken), same⟩
    · exact .inr ⟨member, present, valid, inside⟩
    · have grown (name : String) : ((earlier.put member.1 node).get? name).isSome = true ↔
          name ∈ (done ++ [member]).map Prod.fst := by
        rw [Namespace.isSome_get?_put_iff, listed name, List.map_append, List.mem_append, or_comm]
        exact or_congr_right List.mem_singleton.symm
      have further := ih grown failed
      rw [List.append_assoc] at further
      exact further

theorem exists_flaw_of_childrenOf {chain : List String} (valid : ∀ name ∈ chain, Address.IsKey name)
    {members : List (String × Document)} {fault : Fault}
    (failed : childrenOf (Address.join chain) [] members = .error fault) :
    (∃ key flaw, NameFlawed members key flaw ∧
        fault = flaw.at (Address.join (chain ++ [key]))) ∨
      ∃ member ∈ members, Address.IsKey member.1 ∧
        nodeOf (Address.join (chain ++ [member.1])) member.2 = .error fault := by
  have nothing (name : String) : (Namespace.get? [] name).isSome = true ↔
      name ∈ ([] : List (String × Document)).map Prod.fst := by
    simp [Namespace.get?]
  simp only [← Address.under_join valid]
  exact nameFlawed_of_childrenOf nothing failed

/-- **Reported flaws are real.** What the check reports of a value below the root is wrong at
the reported place. -/
theorem flawed_of_nodeOf {document : Document} {chain : List String}
    (valid : ∀ name ∈ chain, Address.IsKey name) (nonempty : chain ≠ []) {fault : Fault}
    (failed : nodeOf (Address.join chain) document = .error fault) :
    ∃ keys flaw, document.Flawed keys flaw ∧ fault = flaw.at (Address.join (chain ++ keys)) := by
  induction document using Document.inductionOnReading generalizing chain with
  | text value =>
    rw [nodeOf] at failed
    cases failed
  | sequence items =>
    rw [nodeOf] at failed
    rcases Outcome.bind_eq_error_iff.mp failed with listed | ⟨templates, _, made⟩
    · obtain ⟨number, item, stands, noText, rfl⟩ := exists_of_templatesOf_eq_error listed
      have below := Address.join_ne_empty valid nonempty
      have place := Address.under_join valid (String.ofList (Nat.toDigits 10 number))
      rw [Address.under, if_neg (by simpa using below)] at place
      refine ⟨[_], _, .item stands noText, ?_⟩
      rw [Nat.zero_add, place]
      rfl
    · cases made
  | literal kind =>
    rw [nodeOf] at failed
    cases failed
    refine ⟨[], .invalid (.literal kind), .literal kind, ?_⟩
    rw [List.append_nil]
    rfl
  | indexed reads =>
    rw [nodeOf_of_readsIndexed reads] at failed
    rcases Outcome.bind_eq_error_iff.mp failed with listed | ⟨entries, _, made⟩
    · obtain ⟨key, flaw, flawed, same⟩ := slotFlawed_of_entriesOf .nil listed
      rw [Address.under_join valid] at same
      exact ⟨[key], flaw, .slot reads flawed, same⟩
    · cases made
  | namespaced reads ih =>
    rw [nodeOf_of_readsNamespace reads] at failed
    rcases Outcome.bind_eq_error_iff.mp failed with listed | ⟨children, _, made⟩
    · rcases exists_flaw_of_childrenOf valid listed with
        ⟨key, flaw, flawed, same⟩ | ⟨member, present, own, inside⟩
      · exact ⟨[key], flaw, .name reads flawed, same⟩
      · have longer : ∀ name ∈ chain ++ [member.1], Address.IsKey name :=
          List.forall_mem_append.mpr ⟨valid, List.forall_mem_singleton.mpr own⟩
        obtain ⟨keys, flaw, flawed, same⟩ := ih member present longer (by simp) inside
        rw [List.append_assoc] at same
        exact ⟨member.1 :: keys, flaw, .inside reads present flawed, same⟩
    · cases made

theorem isCatalogue_of_ofDocument {document : Document} {catalogue : Catalogue}
    (accepted : ofDocument document = .ok catalogue) : document.IsCatalogue := by
  obtain ⟨members, root, rfl, _, listed⟩ := childrenOf_of_ofDocument accepted
  have joins := joins_of_childrenOf listed
  refine .mapping joins.keyed fun member present => ?_
  obtain ⟨node, made, _⟩ := joins.own member present
  exact valid_of_nodeOf made

theorem rootFlawed_of_ofDocument {document : Document} {fault : Fault}
    (refused : ofDocument document = .error fault) :
    ∃ keys flaw, document.RootFlawed keys flaw ∧ fault = flaw.at (Address.join keys) := by
  have root (noMapping : ∀ members, document ≠ .mapping members)
      (same : fault = .invalid "" (.rootKind document.kind)) :
      ∃ keys flaw, document.RootFlawed keys flaw ∧ fault = flaw.at (Address.join keys) :=
    ⟨[], .invalid (.rootKind document.kind), .root noMapping, same⟩
  cases document with
  | mapping members =>
    rcases Outcome.bind_eq_error_iff.mp refused with listed | ⟨children, _, made⟩
    · rcases exists_flaw_of_childrenOf (List.forall_mem_nil _) listed with
        ⟨key, flaw, flawed, same⟩ | ⟨member, present, own, inside⟩
      · exact ⟨[key], flaw, .name flawed, same⟩
      · obtain ⟨keys, flaw, flawed, same⟩ :=
          flawed_of_nodeOf (List.forall_mem_singleton.mpr own) (by simp) inside
        exact ⟨member.1 :: keys, flaw, .inside present flawed, same⟩
    · cases made
  | text value =>
    cases refused
    exact root nofun rfl
  | sequence items =>
    cases refused
    exact root nofun rfl
  | indexed members =>
    cases refused
    exact root nofun rfl
  | literal kind =>
    cases refused
    exact root nofun rfl

/-- **The check accepts exactly the catalogues.** A document is accepted if and only if it is a
mapping whose members, and all below them, follow the rules. When it is refused, the reported
fault names the dotted place of a flaw that the document really has there. -/
theorem accepts_isCatalogue_and_reports_flaw (document : Document) :
    ((∃ catalogue, ofDocument document = .ok catalogue) ↔ document.IsCatalogue) ∧
      ∀ fault, ofDocument document = .error fault →
        ∃ keys flaw, document.RootFlawed keys flaw ∧ fault = flaw.at (Address.join keys) := by
  refine ⟨⟨?_, fun valid => ?_⟩, fun fault refused => rootFlawed_of_ofDocument refused⟩
  · intro accepted
    obtain ⟨catalogue, accepted⟩ := accepted
    exact isCatalogue_of_ofDocument accepted
  · cases outcome : ofDocument document with
    | ok catalogue => exact ⟨catalogue, rfl⟩
    | error fault =>
      obtain ⟨keys, flaw, flawed, _⟩ := rootFlawed_of_ofDocument outcome
      exact absurd valid flawed.not_isCatalogue

/-- Keys of digits are read as numbers only in an indexed map, which the root is not. -/
example :
    ofDocument (.mapping [("1", .text "one"), ("01", .text "again")]) =
        .ok ⟨[("01", .entry (.scalar ⟨"again"⟩)), ("1", .entry (.scalar ⟨"one"⟩))]⟩ ∧
      ofDocument (.mapping [("m", .mapping [("1", .text "one"), ("01", .text "again")])]) =
        .error (.duplicateKey "m.01") := ⟨rfl, rfl⟩

end Catalogue

end Phrasebook
