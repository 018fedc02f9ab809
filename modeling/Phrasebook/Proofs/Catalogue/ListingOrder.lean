import Mathlib.Data.String.Basic
import Phrasebook.Inspection.Run
import Phrasebook.Proofs.Catalogue.Listing
import Phrasebook.Proofs.Text.Pieces

/-! # The order of the listing

A catalogue lists its entries from left to right, so the chains of keys that lead to them part
where the earlier one takes the smaller key (`Phrasebook.Node.WellFormed.precedes_entries`). The
dotted paths of two such chains stand in the same order, unless the smaller key goes on below
and the larger one continues it with a character before the dot
(`Phrasebook.Address.join_lt_join_iff`). So the listed paths grow exactly where no path
overtakes an earlier one in this way (`Phrasebook.Catalogue.increasing_entryPaths_iff`). Texts
are compared by their characters, which is to compare the bytes of their encodings.
-/

namespace Phrasebook

namespace Text

/-- Where a text comes before another one, that one continues it, or the two differ in a
character. -/
theorem exists_of_lt {first second : List Char} (less : first < second) :
    (∃ c rest, second = first ++ c :: rest) ∨
      ∃ front c d rest more, first = front ++ c :: rest ∧ second = front ++ d :: more ∧ c < d := by
  induction less with
  | nil => exact .inl ⟨_, _, rfl⟩
  | rel smaller => exact .inr ⟨[], _, _, _, _, rfl, rfl, smaller⟩
  | cons _ ih =>
    obtain ⟨c, rest, rfl⟩ | ⟨front, c, d, rest, more, rfl, rfl, smaller⟩ := ih
    · exact .inl ⟨c, rest, rfl⟩
    · exact .inr ⟨_ :: front, c, d, rest, more, rfl, rfl, smaller⟩

/-- A difference in a character decides what comes first, whatever stands behind it. -/
theorem append_cons_lt_append_cons (front : List Char) {c d : Char} (smaller : c < d)
    (rest more : List Char) : front ++ c :: rest < front ++ d :: more :=
  List.append_left_lt (List.cons_lt_cons_iff.mpr (.inl smaller))

end Text

namespace Address

/-- Two chains of keys part where the first one takes the smaller key. -/
def Precedes (names others : List String) : Prop :=
  ∃ front own other below more,
    names = front ++ own :: below ∧ others = front ++ other :: more ∧ own < other

/-- The path of a chain of keys comes before that of an earlier chain: the earlier one goes on
below a key, and in its place the later one has a key that continues it with a character before
the dot. -/
def Overtakes (later earlier : List String) : Prop :=
  ∃ front own next below c rest more,
    earlier = front ++ own :: next :: below ∧
      later = front ++ (own ++ String.ofList (c :: rest)) :: more ∧ c < '.'

theorem Precedes.cons (name : String) {names others : List String}
    (precedes : Precedes names others) : Precedes (name :: names) (name :: others) := by
  obtain ⟨front, own, other, below, more, rfl, rfl, less⟩ := precedes
  exact ⟨name :: front, own, other, below, more, rfl, rfl, less⟩

theorem Precedes.lt {names others : List String} (precedes : Precedes names others) :
    names < others := by
  obtain ⟨front, own, other, below, more, rfl, rfl, less⟩ := precedes
  exact List.append_left_lt (List.cons_lt_cons_iff.mpr (.inl less))

/-- A chain that is overtaken is the earlier one of the two. -/
theorem Overtakes.precedes {later earlier : List String} (overtakes : Overtakes later earlier) :
    Precedes earlier later := by
  obtain ⟨front, own, next, below, c, rest, more, rfl, rfl, _⟩ := overtakes
  refine ⟨front, own, _, next :: below, more, rfl, rfl, ?_⟩
  rw [String.lt_iff_toList_lt, String.toList_append, String.toList_ofList]
  have less : own.toList ++ [] < own.toList ++ c :: rest :=
    List.append_left_lt (List.nil_lt_cons c rest)
  rwa [List.append_nil] at less

/-- The path of a chain that passes a key: what stands in front of the key, the key, and what
stands behind it. -/
theorem toList_join_append_cons (front : List String) (own : String) (below : List String) :
    (join (front ++ own :: below)).toList =
      (front.flatMap fun key => key.toList ++ ['.']) ++
        (own.toList ++ below.flatMap fun key => '.' :: key.toList) := by
  rw [toList_join, List.map_append, List.map_cons, Text.intercalate_append_cons,
    List.flatMap_map, List.flatMap_map]

theorem Overtakes.join_lt {later earlier : List String} (overtakes : Overtakes later earlier) :
    join later < join earlier := by
  obtain ⟨front, own, next, below, c, rest, more, rfl, rfl, before⟩ := overtakes
  rw [String.lt_iff_toList_lt, toList_join_append_cons, toList_join_append_cons,
    String.toList_append, String.toList_ofList, List.flatMap_cons]
  simp only [List.append_assoc, List.cons_append]
  apply List.append_left_lt
  exact Text.append_cons_lt_append_cons own.toList before _ _

/-- The paths of chains that part stand in the order of the chains, unless the later one
overtakes. -/
theorem Precedes.join_lt {names others : List String} (precedes : Precedes names others)
    (valid : ∀ name ∈ others, IsKey name) (behind : ¬ Overtakes others names) :
    join names < join others := by
  obtain ⟨front, own, other, below, more, rfl, rfl, less⟩ := precedes
  obtain ⟨_, noDot, _⟩ := valid other (by simp)
  rw [String.lt_iff_toList_lt, toList_join_append_cons, toList_join_append_cons]
  apply List.append_left_lt
  obtain ⟨c, rest, continued⟩ | ⟨same, c, d, rest, rest', own', other', smaller⟩ :=
    Text.exists_of_lt less
  · rw [continued, List.append_assoc, List.cons_append]
    apply List.append_left_lt
    cases below with
    | nil => exact List.nil_lt_cons c _
    | cons next below =>
      -- the dot behind the smaller key meets the character that continues the larger one
      apply List.cons_lt_cons_iff.mpr
      have other_eq : other = own ++ String.ofList (c :: rest) := by
        rw [← String.toList_inj, continued, String.toList_append, String.toList_ofList]
      have notBefore : ¬ c < '.' := fun before =>
        behind ⟨front, own, next, below, c, rest, more, rfl, by rw [other_eq], before⟩
      have notDot : c ≠ '.' := by
        intro dot
        apply noDot
        simp [continued, dot]
      exact .inl (lt_of_le_of_ne (Char.not_lt.mp notBefore) notDot.symm)
  · rw [own', other', List.append_assoc, List.append_assoc]
    exact Text.append_cons_lt_append_cons same smaller _ _

/-- **Paths in the order of their chains.** -/
theorem Precedes.join_lt_join_iff {names others : List String} (precedes : Precedes names others)
    (valid : ∀ name ∈ others, IsKey name) :
    join names < join others ↔ ¬ Overtakes others names :=
  ⟨fun less overtakes => String.lt_asymm less overtakes.join_lt, precedes.join_lt valid⟩

end Address

namespace Node

theorem precedes_entriesBelow {children : Namespace}
    (increasing : Ordered.Increasing Prod.fst children)
    (nodes : ∀ child ∈ children, (child.2.entries.map Prod.fst).Pairwise Address.Precedes) :
    ((entriesBelow children).map Prod.fst).Pairwise Address.Precedes := by
  induction children with
  | nil => exact .nil
  | cons head rest ih =>
    obtain ⟨name, node⟩ := head
    obtain ⟨above, increasing⟩ := List.pairwise_cons.mp increasing
    obtain ⟨first, later⟩ := List.forall_mem_cons.mp nodes
    rw [entriesBelow, List.map_append, List.map_map]
    refine List.pairwise_append.mpr ⟨?_, ih increasing later, ?_⟩
    · have below : Prod.fst ∘ (fun item : List String × Entry => (name :: item.1, item.2)) =
          (fun names => name :: names) ∘ Prod.fst := rfl
      rw [below, ← List.map_map]
      exact List.pairwise_map.mpr (first.imp (Address.Precedes.cons name))
    · intro names here others there
      obtain ⟨item, _, rfl⟩ := List.mem_map.mp here
      obtain ⟨other, present, rfl⟩ := List.mem_map.mp there
      obtain ⟨child, member, below, shape, _⟩ := mem_entriesBelow.mp present
      exact ⟨[], name, child.1, item.1, below, rfl, shape, above child member⟩

/-- **From left to right.** The chains of keys that lead to the entries of a tree stand in the
order of their keys. -/
theorem WellFormed.precedes_entries {node : Node} (wellFormed : node.WellFormed) :
    (node.entries.map Prod.fst).Pairwise Address.Precedes := by
  induction wellFormed with
  | entry _ => exact List.pairwise_singleton ..
  | branch keyed _ _ ih => exact precedes_entriesBelow keyed.increasing ih

end Node

namespace Catalogue

namespace WellFormed

variable {catalogue : Catalogue} (wellFormed : catalogue.WellFormed)
include wellFormed

theorem precedes_entries : (catalogue.entries.map Prod.fst).Pairwise Address.Precedes :=
  Node.precedes_entriesBelow wellFormed.keyed.increasing fun child present =>
    (wellFormed.nodes child present).precedes_entries

theorem mem_map_fst_entries_iff {names : List String} :
    names ∈ catalogue.entries.map Prod.fst ↔
      ∃ entry, catalogue.node? names = some (.entry entry) := by
  simp only [List.mem_map, Prod.exists, exists_and_right, exists_eq_right,
    wellFormed.mem_entries_iff]

theorem entryPaths_eq_map_join :
    catalogue.entryPaths = (catalogue.entries.map Prod.fst).map Address.join := by
  rw [wellFormed.entryPaths_eq, List.map_map]
  rfl

/-- The listed paths grow when no path overtakes another one. -/
theorem increasing_of_not_overtakes
    (behind : ∀ names others entry other, catalogue.node? names = some (.entry entry) →
      catalogue.node? others = some (.entry other) → ¬ Address.Overtakes others names) :
    Ordered.Increasing id catalogue.entryPaths := by
  rw [wellFormed.entryPaths_eq_map_join]
  apply List.pairwise_map.mpr
  apply wellFormed.precedes_entries.imp_of_mem
  intro names others here there precedes
  obtain ⟨entry, reached⟩ := wellFormed.mem_map_fst_entries_iff.mp here
  obtain ⟨other, reachedOther⟩ := wellFormed.mem_map_fst_entries_iff.mp there
  have valid := (wellFormed.isKey_of_node?_entry reachedOther).2
  exact (precedes.join_lt_join_iff valid).mpr
    (behind names others entry other reached reachedOther)

/-- In a listing that grows no path overtakes another one. -/
theorem not_overtakes_of_increasing (increasing : Ordered.Increasing id catalogue.entryPaths)
    {names others : List String} {entry other : Entry}
    (reached : catalogue.node? names = some (.entry entry))
    (reachedOther : catalogue.node? others = some (.entry other)) :
    ¬ Address.Overtakes others names := by
  intro overtakes
  have precedes := overtakes.precedes
  rw [wellFormed.entryPaths_eq_map_join] at increasing
  have paths : (catalogue.entries.map Prod.fst).Pairwise fun names others =>
      Address.join names < Address.join others := List.pairwise_map.mp increasing
  have chains := wellFormed.precedes_entries
  have there := wellFormed.mem_map_fst_entries_iff.mpr ⟨other, reachedOther⟩
  -- the other chain stands behind the overtaken one, and so would its path
  obtain ⟨front, behind, parts⟩ :=
    List.append_of_mem (wellFormed.mem_map_fst_entries_iff.mpr ⟨entry, reached⟩)
  rw [parts] at paths chains there
  obtain ⟨_, pathsBehind, _⟩ := List.pairwise_append.mp paths
  obtain ⟨_, _, chainsInFront⟩ := List.pairwise_append.mp chains
  rcases List.mem_append.mp there with earlier | later
  · have backwards := chainsInFront others earlier names List.mem_cons_self
    exact lt_asymm precedes.lt backwards.lt
  · rcases List.mem_cons.mp later with same | later
    · exact absurd same (ne_of_gt precedes.lt)
    · have less := (List.pairwise_cons.mp pathsBehind).1 others later
      have valid := (wellFormed.isKey_of_node?_entry reachedOther).2
      exact (precedes.join_lt_join_iff valid).mp less overtakes

end WellFormed

/-- **The order of the listing.** A catalogue that is made from a document lists the paths of
the chains of keys that lead to its entries, from left to right: of two chains the earlier one
takes the smaller key where they part. The listed paths grow strictly exactly when no such chain
overtakes another one, that is when no key of a namespace with entries is continued, in a key
beside it, by a character before the dot. The inspection program shows the paths of a locale in
the order of the listing. -/
theorem increasing_entryPaths_iff {document : Document} {catalogue : Catalogue}
    (accepted : ofDocument document = .ok catalogue) :
    (∃ chains : List (List String), catalogue.entryPaths = chains.map Address.join ∧
        chains.Pairwise Address.Precedes ∧
        ∀ names, names ∈ chains ↔ ∃ entry, catalogue.node? names = some (.entry entry)) ∧
      (Ordered.Increasing id catalogue.entryPaths ↔
        ∀ names others entry other, catalogue.node? names = some (.entry entry) →
          catalogue.node? others = some (.entry other) → ¬ Address.Overtakes others names) ∧
      ∀ (translator : Translator) (locale : Locale) (named : Option String),
        translator.current = .ok locale → translator.registry.get? locale = some catalogue →
        Inspection.output translator (.keys named) = .ok (.ofLines catalogue.entryPaths) := by
  have wellFormed := wellFormed_of_ofDocument accepted
  refine ⟨⟨catalogue.entries.map Prod.fst, wellFormed.entryPaths_eq_map_join,
    wellFormed.precedes_entries, fun _ => wellFormed.mem_map_fst_entries_iff⟩,
    ⟨?_, wellFormed.increasing_of_not_overtakes⟩, ?_⟩
  · intro increasing names others entry other reached reachedOther
    exact wellFormed.not_overtakes_of_increasing increasing reached reachedOther
  · intro translator locale named current registered
    have found : translator.registry.get locale = .ok catalogue := by
      rw [Registry.get, registered]
    rw [Inspection.output]
    exact Outcome.bind_eq_ok_iff.mpr
      ⟨locale, current, Outcome.bind_eq_ok_iff.mpr ⟨catalogue, found, rfl⟩⟩

/-- A namespace, and beside it a key that continues its key with a colon, which comes behind
the dot. -/
theorem increasing_entryPaths_iff_menu :
    ∃ catalogue, ofDocument (.mapping [("menu:", .text "Menu"), ("menu", .mapping
        [("play", .text "Play")])]) = .ok catalogue ∧
      catalogue.entryPaths = ["menu.play", "menu:"] ∧
      (∃ chains : List (List String), catalogue.entryPaths = chains.map Address.join ∧
        chains.Pairwise Address.Precedes ∧
        ∀ names, names ∈ chains ↔ ∃ entry, catalogue.node? names = some (.entry entry)) ∧
      (Ordered.Increasing id catalogue.entryPaths ↔
        ∀ names others entry other, catalogue.node? names = some (.entry entry) →
          catalogue.node? others = some (.entry other) → ¬ Address.Overtakes others names) := by
  have accepted : ofDocument (.mapping [("menu:", .text "Menu"), ("menu", .mapping
      [("play", .text "Play")])]) = .ok ⟨[("menu", .branch [("play", .entry (.scalar ⟨"Play"⟩))]),
        ("menu:", .entry (.scalar ⟨"Menu"⟩))]⟩ := rfl
  obtain ⟨chains, order, _⟩ := increasing_entryPaths_iff accepted
  exact ⟨_, accepted, rfl, chains, order⟩

/-- A key that continues the key of a namespace with a hyphen, which comes before the dot: its
path is listed behind a larger one. -/
theorem entryPaths_not_increasing :
    ∃ document catalogue, ofDocument document = .ok catalogue ∧
      catalogue.entryPaths = ["menu.play", "menu-bar"] ∧
      ¬ Ordered.Increasing id catalogue.entryPaths := by
  have accepted : ofDocument (.mapping [("menu", .mapping [("play", .text "Play")]),
      ("menu-bar", .text "Bar")]) = .ok ⟨[("menu", .branch [("play", .entry (.scalar ⟨"Play"⟩))]),
        ("menu-bar", .entry (.scalar ⟨"Bar"⟩))]⟩ := rfl
  refine ⟨_, _, accepted, rfl, ?_⟩
  have listing : Catalogue.entryPaths ⟨[("menu", .branch [("play", .entry (.scalar ⟨"Play"⟩))]),
      ("menu-bar", .entry (.scalar ⟨"Bar"⟩))]⟩ = ["menu.play", "menu-bar"] := rfl
  rw [listing, Ordered.Increasing]
  decide

end Catalogue

end Phrasebook
