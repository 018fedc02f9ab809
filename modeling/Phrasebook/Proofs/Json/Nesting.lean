import Phrasebook.Json.Reading
import Phrasebook.Proofs.Json.Spelling
import Phrasebook.Proofs.Text.Pieces

/-! # Reading nested documents

The tokens of a document (`Phrasebook.Document.tokens`) hold its members and items in their
order, with all repetitions. The reader of JSON completes the document behind these tokens,
whatever containers are open around it, as long as not too many are
(`Phrasebook.Document.foldlM_step_tokens`). So every text that spells the tokens of a document
is read as that document, in which the texts do not tell an indexed map from another mapping
(`Phrasebook.Document.ofJson?_of_spells`).
-/

namespace Phrasebook.Document

open Json (Token Reader)

mutual

/-- The document with all its mappings as plain mappings. -/
def plain : Document → Document
  | .text value => .text value
  | .sequence items => .sequence (plainItems items)
  | .mapping members | .indexed members => .mapping (plainMembers members)
  | .literal kind => .literal kind

/-- The items of a sequence, with all their mappings as plain ones. -/
def plainItems : List Document → List Document
  | [] => []
  | item :: rest => item.plain :: plainItems rest

/-- The members of a mapping, with all mappings in their values as plain ones. -/
def plainMembers : List (String × Document) → List (String × Document)
  | [] => []
  | (key, value) :: rest => (key, value.plain) :: plainMembers rest

end

mutual

/-- How many sequences and mappings stand in each other. -/
def depth : Document → Nat
  | .text _ | .literal _ => 0
  | .sequence items => depthOfItems items + 1
  | .mapping members | .indexed members => depthOfMembers members + 1

/-- The depth of the deepest item. -/
def depthOfItems : List Document → Nat
  | [] => 0
  | item :: rest => max item.depth (depthOfItems rest)

/-- The depth of the deepest value of a member. -/
def depthOfMembers : List (String × Document) → Nat
  | [] => 0
  | (_, value) :: rest => max value.depth (depthOfMembers rest)

end

mutual

/-- The tokens that write a document in JSON. -/
def tokens : Document → List Token
  | .text value => [.text value]
  | .sequence items => .openBracket :: [.comma].intercalate (itemTokens items) ++ [.closeBracket]
  | .mapping members | .indexed members =>
    .openBrace :: [.comma].intercalate (memberTokens members) ++ [.closeBrace]
  | .literal kind => [.literal kind]

/-- The tokens of each item of a sequence. -/
def itemTokens : List Document → List (List Token)
  | [] => []
  | item :: rest => item.tokens :: itemTokens rest

/-- The tokens of each member of a mapping. -/
def memberTokens : List (String × Document) → List (List Token)
  | [] => []
  | (key, value) :: rest => (.text key :: .colon :: value.tokens) :: memberTokens rest

end

theorem plainItems_eq_map (items : List Document) : plainItems items = items.map plain := by
  induction items with
  | nil => rfl
  | cons item rest ih => rw [plainItems, ih, List.map_cons]

theorem plainMembers_eq_map (members : List (String × Document)) :
    plainMembers members = members.map fun member => (member.1, member.2.plain) := by
  induction members with
  | nil => rfl
  | cons member rest ih => rw [plainMembers, ih, List.map_cons]

theorem itemTokens_eq_map (items : List Document) : itemTokens items = items.map tokens := by
  induction items with
  | nil => rfl
  | cons item rest ih => rw [itemTokens, ih, List.map_cons]

theorem memberTokens_eq_map (members : List (String × Document)) :
    memberTokens members =
      members.map fun member => .text member.1 :: .colon :: member.2.tokens := by
  induction members with
  | nil => rfl
  | cons member rest ih => rw [memberTokens, ih, List.map_cons]

theorem depth_le_depthOfItems {items : List Document} {item : Document} (present : item ∈ items) :
    item.depth ≤ depthOfItems items := by
  induction items with
  | nil => cases present
  | cons head rest ih =>
    rw [depthOfItems]
    rcases List.mem_cons.mp present with rfl | later
    · exact Nat.le_max_left _ _
    · exact (ih later).trans (Nat.le_max_right _ _)

theorem depthOfMembers_eq (members : List (String × Document)) :
    depthOfMembers members = depthOfItems (members.map Prod.snd) := by
  induction members with
  | nil => rfl
  | cons member rest ih => rw [depthOfMembers, ih, List.map_cons, depthOfItems]

theorem depth_le_depthOfMembers {members : List (String × Document)} {member : String × Document}
    (present : member ∈ members) : member.2.depth ≤ depthOfMembers members := by
  rw [depthOfMembers_eq]
  exact depth_le_depthOfItems (List.mem_map_of_mem present)

/-- A machine that collects one value from each piece, and goes on behind each separator,
collects the values of all pieces between separators. -/
theorem foldlM_intercalate {α β σ τ : Type} {step : σ → τ → Option σ} {pieceOf : α → List τ}
    {valueOf : α → β} (before behind : List β → σ) {separator : τ} {items : List α}
    (collects : ∀ item ∈ items, ∀ done rest, (pieceOf item ++ rest).foldlM step (before done) =
      rest.foldlM step (behind (valueOf item :: done)))
    (goesOn : ∀ value done rest, (separator :: rest).foldlM step (behind (value :: done)) =
      rest.foldlM step (before (value :: done))) (nonempty : items ≠ []) (done : List β)
    (rest : List τ) :
    ([separator].intercalate (items.map pieceOf) ++ rest).foldlM step (before done) =
      rest.foldlM step (behind ((items.map valueOf).reverse ++ done)) := by
  induction items generalizing done with
  | nil => exact absurd rfl nonempty
  | cons item items ih =>
    obtain ⟨first, later⟩ := List.forall_mem_cons.mp collects
    cases items with
    | nil =>
      rw [List.map_singleton, List.map_singleton, List.intercalate_singleton]
      exact first done rest
    | cons next items =>
      have order : ((item :: next :: items).map valueOf).reverse ++ done =
          ((next :: items).map valueOf).reverse ++ valueOf item :: done := by
        rw [List.map_cons, List.reverse_cons, List.append_assoc, List.singleton_append]
      rw [order, ← ih later (List.cons_ne_nil next items), List.map_cons, List.map_cons,
        List.intercalate_cons_cons, List.append_assoc, List.append_assoc, first,
        List.singleton_append, goesOn]

/-- The reader completes the document behind its tokens, inside any containers that leave room
for it. -/
def Reads (document : Document) : Prop :=
  ∀ outer : List Json.Frame, outer.length + document.depth ≤ Json.maxDepth → ∀ rest : List Token,
    (document.tokens ++ rest).foldlM Reader.step ⟨outer, .value⟩ =
      rest.foldlM Reader.step (Reader.complete outer document.plain)

/-- The reader before an item of a sequence, behind those that are `done`. -/
def beforeItem (outer : List Json.Frame) : List Document → Reader
  | [] => ⟨outer, .firstItem⟩
  | done => ⟨.array done :: outer, .value⟩

/-- The reader before a member of a mapping, behind those that are `done`. -/
def beforeMember (outer : List Json.Frame) : List (String × Document) → Reader
  | [] => ⟨outer, .firstKey⟩
  | done => ⟨outer, .nextKey done⟩

section Containers

variable {outer : List Json.Frame} (rest : List Token)

theorem Reads.collects {item : Document} (reads : item.Reads)
    (shallow : outer.length + item.depth < Json.maxDepth) (done : List Document) :
    (item.tokens ++ rest).foldlM Reader.step (beforeItem outer done) =
      rest.foldlM Reader.step ⟨outer, .nextItem (item.plain :: done)⟩ := by
  have inside : (Json.Frame.array done :: outer).length + item.depth ≤ Json.maxDepth := by
    rw [List.length_cons]
    omega
  have read := reads _ inside rest
  cases done with
  | nil =>
    -- the first item may not be a closing bracket, which no document begins with
    have first : (item.tokens ++ rest).foldlM Reader.step ⟨outer, .firstItem⟩ =
        (item.tokens ++ rest).foldlM Reader.step ⟨.array [] :: outer, .value⟩ := by
      cases item <;> rfl
    exact first.trans read
  | cons last done => exact read

theorem Reads.collects_member {key : String} {value : Document} (reads : value.Reads)
    (shallow : outer.length + value.depth < Json.maxDepth) (done : List (String × Document)) :
    ((.text key :: .colon :: value.tokens) ++ rest).foldlM Reader.step (beforeMember outer done) =
      rest.foldlM Reader.step ⟨outer, .nextMember ((key, value.plain) :: done)⟩ := by
  have inside : (Json.Frame.object done key :: outer).length + value.depth ≤ Json.maxDepth := by
    rw [List.length_cons]
    omega
  have read := reads _ inside rest
  cases done with
  | nil => exact read
  | cons last done => exact read

/-- A sequence is read when its items are. -/
theorem foldlM_step_sequence {items : List Document} (reads : ∀ item ∈ items, item.Reads)
    (shallow : outer.length + depthOfItems items < Json.maxDepth) :
    ((sequence items).tokens ++ rest).foldlM Reader.step ⟨outer, .value⟩ =
      rest.foldlM Reader.step (Reader.complete outer (sequence items).plain) := by
  have room : outer.length < Json.maxDepth := by omega
  have opened : Reader.step ⟨outer, .value⟩ .openBracket = some (beforeItem outer []) :=
    if_pos room
  rw [tokens, plain, List.cons_append, List.cons_append, List.append_assoc, List.singleton_append,
    Json.foldlM_cons_of_step opened, itemTokens_eq_map, plainItems_eq_map]
  by_cases empty : items = []
  · subst empty
    rfl
  · have collects : ∀ item ∈ items, ∀ done rest,
        (item.tokens ++ rest).foldlM Reader.step (beforeItem outer done) =
          rest.foldlM Reader.step ⟨outer, .nextItem (item.plain :: done)⟩ := by
      intro item present done rest
      have inside := depth_le_depthOfItems present
      exact (reads item present).collects rest (by omega) done
    rw [foldlM_intercalate (beforeItem outer) (⟨outer, .nextItem ·⟩) collects
      (fun _ _ _ => rfl) empty, List.append_nil]
    change rest.foldlM Reader.step (Reader.complete outer (.sequence _)) = _
    rw [List.reverse_reverse]

/-- A mapping is read when its values are. -/
theorem foldlM_step_mapping {members : List (String × Document)}
    (reads : ∀ member ∈ members, member.2.Reads)
    (shallow : outer.length + depthOfMembers members < Json.maxDepth) :
    ((mapping members).tokens ++ rest).foldlM Reader.step ⟨outer, .value⟩ =
      rest.foldlM Reader.step (Reader.complete outer (mapping members).plain) := by
  have room : outer.length < Json.maxDepth := by omega
  have opened : Reader.step ⟨outer, .value⟩ .openBrace = some (beforeMember outer []) :=
    if_pos room
  rw [tokens, plain, List.cons_append, List.cons_append, List.append_assoc, List.singleton_append,
    Json.foldlM_cons_of_step opened, memberTokens_eq_map, plainMembers_eq_map]
  by_cases empty : members = []
  · subst empty
    rfl
  · have collects : ∀ member ∈ members, ∀ done rest,
        ((.text member.1 :: .colon :: member.2.tokens) ++ rest).foldlM Reader.step
            (beforeMember outer done) =
          rest.foldlM Reader.step ⟨outer, .nextMember ((member.1, member.2.plain) :: done)⟩ := by
      intro member present done rest
      have inside := depth_le_depthOfMembers present
      exact (reads member present).collects_member rest (by omega) done
    rw [foldlM_intercalate (beforeMember outer) (⟨outer, .nextMember ·⟩) collects
      (fun _ _ _ => rfl) empty, List.append_nil]
    change rest.foldlM Reader.step (Reader.complete outer (.mapping _)) = _
    rw [List.reverse_reverse]

end Containers

mutual

/-- **Reading a document.** The reader completes every document behind its tokens. -/
theorem reads (document : Document) : document.Reads := by
  intro outer shallow rest
  cases document with
  | text value => rfl
  | literal kind => rfl
  | sequence items => exact foldlM_step_sequence rest (reads_items items) shallow
  | mapping members => exact foldlM_step_mapping rest (reads_members members) shallow
  | indexed members => exact foldlM_step_mapping rest (reads_members members) shallow

theorem reads_items (items : List Document) : ∀ item ∈ items, item.Reads := by
  cases items with
  | nil => exact List.forall_mem_nil _
  | cons item rest => exact List.forall_mem_cons.mpr ⟨reads item, reads_items rest⟩

theorem reads_members (members : List (String × Document)) :
    ∀ member ∈ members, member.2.Reads := by
  cases members with
  | nil => exact List.forall_mem_nil _
  | cons member rest =>
    obtain ⟨key, value⟩ := member
    exact List.forall_mem_cons.mpr ⟨reads value, reads_members rest⟩

end

/-- **However it is written.** A text that spells the tokens of a document is read as the
document, with the members of every mapping in their order and with their repetitions. -/
theorem ofJson?_of_spells {document : Document} {text : String}
    (spells : Json.Spells text.toList document.tokens)
    (shallow : document.depth ≤ Json.maxDepth) : ofJson? text = some document.plain := by
  have read := document.reads [] (by simpa using shallow) []
  rw [List.append_nil] at read
  rw [ofJson?, Json.tokens?_of_spells spells, Option.bind_some, Json.document?, read]
  rfl

theorem literal_notMem_sequence {items : List Document} {kind : Literal}
    (each : ∀ item ∈ items, .literal kind ∉ item.tokens) :
    .literal kind ∉ (sequence items).tokens := by
  intro present
  rw [tokens, itemTokens_eq_map] at present
  have inside : Token.literal kind ∈ [Token.comma].intercalate (items.map tokens) := by
    simpa using present
  rcases Text.mem_intercalate inside with between | ⟨piece, listed, inside⟩
  · cases between
  · obtain ⟨item, stands, rfl⟩ := List.mem_map.mp listed
    exact each item stands inside

theorem literal_notMem_mapping {members : List (String × Document)} {kind : Literal}
    (each : ∀ member ∈ members, .literal kind ∉ member.2.tokens) :
    .literal kind ∉ (mapping members).tokens := by
  intro present
  rw [tokens, memberTokens_eq_map] at present
  have inside : Token.literal kind ∈ [Token.comma].intercalate
      (members.map fun member => .text member.1 :: .colon :: member.2.tokens) := by
    simpa using present
  rcases Text.mem_intercalate inside with between | ⟨piece, listed, inside⟩
  · cases between
  · obtain ⟨member, stands, rfl⟩ := List.mem_map.mp listed
    exact each member stands (by simpa using inside)

end Phrasebook.Document
