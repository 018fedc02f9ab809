import Mathlib.Data.List.Perm.Subperm
import Phrasebook.Ordered

/-! # Looking up and sorting keyed lists

In a list whose keys are different, a key leads to the item that stands under it
(`Phrasebook.Ordered.lookup_eq_some_iff_mem`); the keys of a list in increasing order are
different. A sorted list of texts holds the texts that it was made from
(`Phrasebook.Ordered.mem_ofList_id`). Sorting drops and moves items
(`Phrasebook.Ordered.ofList_subperm`), moves them only where all keys are different
(`Phrasebook.Ordered.ofList_perm`), and leaves a list in increasing order alone
(`Phrasebook.Ordered.ofList_of_increasing`).
-/

namespace Phrasebook.Ordered

variable {κ β : Type}

theorem lookup_eq_some_iff_mem [BEq κ] [LawfulBEq κ] {items : List (κ × β)}
    (distinct : (items.map Prod.fst).Nodup) {key : κ} {value : β} :
    items.lookup key = some value ↔ (key, value) ∈ items := by
  induction items with
  | nil => simp
  | cons head rest ih =>
    obtain ⟨fresh, tail⟩ := List.nodup_cons.mp distinct
    rw [List.lookup_cons, List.mem_cons]
    by_cases same : key = head.1
    · subst same
      rw [beq_self_eq_true]
      constructor
      · intro found
        exact .inl (Prod.ext rfl (Option.some.inj found).symm)
      · rintro (here | later)
        · exact congrArg some (congrArg Prod.snd here).symm
        · exact absurd (List.mem_map_of_mem later) fresh
    · rw [beq_false_of_ne same]
      constructor
      · exact fun found => .inr ((ih tail).mp found)
      · rintro (here | later)
        · exact absurd (congrArg Prod.fst here) same
        · exact (ih tail).mpr later

theorem Increasing.nodup {α : Type} [LT κ] [Std.Irrefl (α := κ) (· < ·)] {key : α → κ}
    {items : List α} (increasing : Increasing key items) : (items.map key).Nodup := by
  refine List.pairwise_map.mpr (increasing.imp fun {first second} less same => ?_)
  exact Std.Irrefl.irrefl (r := (· < ·)) (key second) (same ▸ less)

theorem Increasing.nodup_id {texts : List String} (increasing : Increasing id texts) :
    texts.Nodup := by
  have distinct := increasing.nodup
  rwa [List.map_id] at distinct

/-- Leaving out items under other keys does not change what stands under a key. -/
theorem lookup_filter_of_kept [BEq κ] [LawfulBEq κ] (keep : κ → Bool) {key : κ}
    (kept : keep key = true) (items : List (κ × β)) :
    (items.filter fun item => keep item.1).lookup key = items.lookup key := by
  induction items with
  | nil => rfl
  | cons item rest ih =>
    rw [List.filter_cons]
    by_cases same : key = item.1
    · rw [← same, kept, if_pos rfl, List.lookup_cons, List.lookup_cons, ← same, beq_self_eq_true]
    · have other : (key == item.1) = false := beq_false_of_ne same
      split
      · rw [List.lookup_cons, List.lookup_cons, other]
        exact ih
      · rw [List.lookup_cons, other]
        exact ih

theorem mem_insert_id {item other : String} {items : List String} :
    other ∈ insert id item items ↔ other = item ∨ other ∈ items := by
  constructor
  · exact mem_of_mem_insert
  · induction items with
    | nil => simp [insert]
    | cons head rest ih =>
      unfold insert
      split
      · simp
      · next notLess =>
        split
        · rintro (rfl | member)
          · exact List.mem_cons_of_mem _ (ih (.inl rfl))
          · rcases List.mem_cons.mp member with rfl | later
            · exact List.mem_cons_self
            · exact List.mem_cons_of_mem _ (ih (.inr later))
        · next notGreater =>
          have same : item = head :=
            Std.Trichotomous.trichotomous (r := (· < ·)) _ _ notLess notGreater
          rw [same]
          simp

/-- A sorted list of texts holds the texts that it was made from. -/
theorem mem_ofList_id {other : String} {items : List String} :
    other ∈ ofList id items ↔ other ∈ items := by
  have collected (sorted : List String) :
      other ∈ items.foldl (fun sorted item => insert id item sorted) sorted ↔
        other ∈ sorted ∨ other ∈ items := by
    induction items generalizing sorted with
    | nil => simp
    | cons item rest ih =>
      rw [List.foldl_cons, ih, mem_insert_id, List.mem_cons, or_assoc, or_left_comm]
  rw [ofList, collected]
  simp

section Sorting

variable {α : Type} [LT κ] [DecidableLT κ] {key : α → κ}

theorem insert_subperm (item : α) (items : List α) :
    (insert key item items).Subperm (item :: items) := by
  induction items with
  | nil => exact .refl _
  | cons head rest ih =>
    unfold insert
    split
    · exact .refl _
    · split
      · have later : (head :: insert key item rest).Subperm (head :: item :: rest) :=
          (List.subperm_cons head).mpr ih
        exact later.trans (List.Perm.swap item head rest).subperm
      · exact (List.subperm_cons item).mpr .cons_self

theorem insert_of_above [Std.Asymm (α := κ) (· < ·)] {item : α} {items : List α}
    (above : ∀ other ∈ items, key other < key item) : insert key item items = items ++ [item] := by
  induction items with
  | nil => rfl
  | cons head rest ih =>
    obtain ⟨first, later⟩ := List.forall_mem_cons.mp above
    rw [insert, if_neg (Std.Asymm.asymm _ _ first), if_pos first, ih later, List.cons_append]

theorem foldl_insert_subperm (items sorted : List α) :
    (items.foldl (fun sorted item => insert key item sorted) sorted).Subperm (items ++ sorted) := by
  induction items generalizing sorted with
  | nil => exact .refl _
  | cons item rest ih =>
    have first : (rest ++ insert key item sorted).Subperm (rest ++ item :: sorted) :=
      (List.subperm_append_left rest).mpr (insert_subperm item sorted)
    exact ((ih _).trans first).trans List.perm_middle.subperm

theorem ofList_subperm (items : List α) : (ofList key items).Subperm items := by
  have collected : (ofList key items).Subperm (items ++ []) := foldl_insert_subperm items []
  rw [List.append_nil] at collected
  exact collected

theorem foldl_insert_of_increasing [Std.Asymm (α := κ) (· < ·)] {items sorted : List α}
    (increasing : Increasing key (sorted ++ items)) :
    items.foldl (fun sorted item => insert key item sorted) sorted = sorted ++ items := by
  induction items generalizing sorted with
  | nil => simp
  | cons item rest ih =>
    have above : ∀ other ∈ sorted, key other < key item := fun other member =>
      (List.pairwise_append.mp increasing).2.2 other member item List.mem_cons_self
    have moved : sorted ++ item :: rest = (sorted ++ [item]) ++ rest := by simp
    rw [List.foldl_cons, insert_of_above above, moved]
    rw [moved] at increasing
    exact ih increasing

/-- A list in increasing order is kept as it is. -/
theorem ofList_of_increasing [Std.Asymm (α := κ) (· < ·)] {items : List α}
    (increasing : Increasing key items) : ofList key items = items :=
  foldl_insert_of_increasing (show Increasing key ([] ++ items) from increasing)

theorem insert_perm_of_notMem [Std.Trichotomous (α := κ) (· < ·)] {item : α} {items : List α}
    (fresh : key item ∉ items.map key) : (insert key item items).Perm (item :: items) := by
  induction items with
  | nil => exact .refl _
  | cons head rest ih =>
    obtain ⟨other, absent⟩ := not_or.mp (List.mem_cons.not.mp fresh)
    unfold insert
    split
    · exact .refl _
    · next notLess =>
      split
      · exact ((ih absent).cons head).trans (.swap item head rest)
      · next notGreater =>
        exact absurd (Std.Trichotomous.trichotomous (r := (· < ·)) _ _ notLess notGreater) other

theorem foldl_insert_perm [Std.Trichotomous (α := κ) (· < ·)] {items sorted : List α}
    (distinct : ((items ++ sorted).map key).Nodup) :
    (items.foldl (fun sorted item => insert key item sorted) sorted).Perm (items ++ sorted) := by
  induction items generalizing sorted with
  | nil => exact .refl _
  | cons item rest ih =>
    have moved : ((item :: rest) ++ sorted).Perm (rest ++ item :: sorted) := List.perm_middle.symm
    have fresh : key item ∉ sorted.map key := by
      rw [List.cons_append, List.map_cons, List.map_append] at distinct
      exact fun again => (List.nodup_cons.mp distinct).1 (List.mem_append_right _ again)
    have joined : (rest ++ insert key item sorted).Perm (rest ++ item :: sorted) :=
      (insert_perm_of_notMem fresh).append_left rest
    have later := ih (((joined.trans moved.symm).map key).nodup_iff.mpr distinct)
    exact (later.trans joined).trans moved.symm

/-- A list whose keys are different keeps all its items. -/
theorem ofList_perm [Std.Trichotomous (α := κ) (· < ·)] {items : List α}
    (distinct : (items.map key).Nodup) : (ofList key items).Perm items := by
  have whole : (ofList key items).Perm (items ++ []) :=
    foldl_insert_perm (by rwa [List.append_nil])
  rwa [List.append_nil] at whole

theorem increasing_ofList [Std.Trichotomous (α := κ) (· < ·)]
    [Trans (α := κ) (· < ·) (· < ·) (· < ·)] (items : List α) :
    Increasing key (ofList key items) := by
  have collected (sorted : List α) (increasing : Increasing key sorted) :
      Increasing key (items.foldl (fun sorted item => insert key item sorted) sorted) := by
    induction items generalizing sorted with
    | nil => exact increasing
    | cons item rest ih => exact ih _ (increasing_insert increasing)
  exact collected [] .nil

end Sorting

/-- Lists in increasing order of the same items are equal. -/
theorem Increasing.eq_of_perm {α : Type} [LT κ] [Std.Asymm (α := κ) (· < ·)] {key : α → κ}
    {items others : List α} (increasing : Increasing key items)
    (othersIncreasing : Increasing key others) (order : items.Perm others) : items = others :=
  List.Perm.eq_of_pairwise (fun _ _ _ _ less greater => absurd greater (Std.Asymm.asymm _ _ less))
    increasing othersIncreasing order

/-- Lists in increasing order of the same keys have their keys in the same places. -/
theorem Increasing.map_eq_of_perm {α : Type} [LT κ] [Std.Asymm (α := κ) (· < ·)] {key : α → κ}
    {items others : List α} (increasing : Increasing key items)
    (othersIncreasing : Increasing key others) (order : (items.map key).Perm (others.map key)) :
    items.map key = others.map key := by
  have keys : Increasing id (items.map key) := List.pairwise_map.mpr increasing
  have otherKeys : Increasing id (others.map key) := List.pairwise_map.mpr othersIncreasing
  exact keys.eq_of_perm otherKeys order

/-- Sorting texts forgets their order and how often each of them stands in the list. -/
theorem ofList_id_eq {items others : List String} (same : ∀ text, text ∈ items ↔ text ∈ others) :
    ofList id items = ofList id others := by
  refine (increasing_ofList items).eq_of_perm (increasing_ofList others) ?_
  refine (List.perm_ext_iff_of_nodup (increasing_ofList items).nodup_id
    (increasing_ofList others).nodup_id).mpr fun text => ?_
  rw [mem_ofList_id, mem_ofList_id]
  exact same text

end Phrasebook.Ordered
