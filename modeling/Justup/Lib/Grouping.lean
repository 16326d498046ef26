import Justup.Lib.Dict

/-!
# Grouping values by a key

The values of every key in the order of the items, as
`groups.setdefault(key, []).append(value)` collects them.
-/

namespace Justup.Lib.Dict

variable {K X : Type*} [LinearOrder K]

/-- The values of the items, grouped by their keys. -/
def group (items : List (K × X)) : List (K × List X) :=
  fill Prod.fst (fun old item => old.getD [] ++ [item.2]) items []

theorem ordered_group (items : List (K × X)) : Ordered (group items) :=
  Ordered.fill items ordered_nil

theorem foldl_snoc (items : List (K × X)) (front : List X) :
    items.foldl (fun values item => values ++ [item.2]) front = front ++ items.map Prod.snd := by
  induction items generalizing front with
  | nil => simp
  | cons item rest ih =>
      rw [List.foldl_cons, ih]
      simp

/-- A group holds the values of its key, and there is one for every key that occurs. -/
theorem mem_group {items : List (K × X)} {key : K} {values : List X} :
    (key, values) ∈ group items ↔
      values ≠ [] ∧ values = (items.filter fun item => decide (item.1 = key)).map Prod.snd := by
  have hget := get?_fill_getD Prod.fst [] (fun values item => values ++ [item.2]) items key
  have hfilter : items.filter (fun item => decide (key = item.1)) =
      items.filter fun item => decide (item.1 = key) :=
    List.filter_congr fun item _ => decide_eq_decide.mpr eq_comm
  rw [foldl_snoc, List.nil_append, hfilter] at hget
  constructor
  · intro hmem
    have hsome : get? key (group items) = some values := get?_of_mem (ordered_group items) hmem
    rw [group, hget] at hsome
    split_ifs at hsome with hnil
    have heq := Option.some.inj hsome
    refine ⟨?_, heq.symm⟩
    rw [← heq]
    simpa using hnil
  · rintro ⟨hne, rfl⟩
    refine mem_of_get? ?_
    rw [group, hget, if_neg]
    simpa using hne

/-- The keys of the groups are those of the items. -/
theorem mem_keys_group {items : List (K × X)} {key : K} :
    key ∈ (group items).map Prod.fst ↔ key ∈ items.map Prod.fst := by
  simp only [List.mem_map, Prod.exists, exists_and_right, exists_eq_right]
  constructor
  · rintro ⟨values, hmem⟩
    obtain ⟨hne, rfl⟩ := mem_group.mp hmem
    obtain ⟨value, hvalue⟩ := List.exists_mem_of_ne_nil _ hne
    obtain ⟨item, hitem, rfl⟩ := List.mem_map.mp hvalue
    obtain ⟨hitem, hkey⟩ := List.mem_filter.mp hitem
    exact ⟨item.2, by rwa [← of_decide_eq_true hkey]⟩
  · rintro ⟨value, hmem⟩
    refine ⟨_, mem_group.mpr ⟨?_, rfl⟩⟩
    refine List.ne_nil_of_mem (a := value) (List.mem_map.mpr ⟨(key, value), ?_, rfl⟩)
    exact List.mem_filter.mpr ⟨hmem, decide_eq_true rfl⟩

theorem nodup_keys_group (items : List (K × X)) : ((group items).map Prod.fst).Nodup :=
  (List.pairwise_map.mpr (ordered_group items)).imp ne_of_lt

/-- The groups are their keys, each with the values of its items. -/
theorem group_eq_map (items : List (K × X)) :
    group items = ((group items).map Prod.fst).map fun key =>
      (key, (items.filter fun item => decide (item.1 = key)).map Prod.snd) := by
  rw [List.map_map]
  conv_lhs => rw [← List.map_id (group items)]
  refine List.map_congr_left fun entry hentry => ?_
  exact Prod.ext rfl (mem_group.mp (hentry : (entry.1, entry.2) ∈ group items)).2

/-- In another order the same keys come in the same order, each with its values in some order. -/
theorem forall₂_group_of_perm {items other : List (K × X)} (hperm : items.Perm other) :
    List.Forall₂ (fun first second => first.1 = second.1 ∧ first.2.Perm second.2) (group items)
      (group other) := by
  have hkeys : (group items).map Prod.fst = (group other).map Prod.fst := by
    have hsame : ((group items).map Prod.fst).Perm ((group other).map Prod.fst) := by
      refine (List.perm_ext_iff_of_nodup (nodup_keys_group items) (nodup_keys_group other)).mpr ?_
      intro key
      rw [mem_keys_group, mem_keys_group, (hperm.map Prod.fst).mem_iff]
    have hfirst : ((group items).map Prod.fst).Pairwise (· < ·) :=
      List.pairwise_map.mpr (ordered_group items)
    have hsecond : ((group other).map Prod.fst).Pairwise (· < ·) :=
      List.pairwise_map.mpr (ordered_group other)
    exact hsame.eq_of_pairwise (fun a b _ _ hab hba => absurd hba hab.not_gt) hfirst hsecond
  rw [group_eq_map items, group_eq_map other, hkeys, List.forall₂_map_left_iff,
    List.forall₂_map_right_iff]
  exact List.forall₂_same.mpr fun key _ => ⟨rfl, (hperm.filter _).map _⟩

/-- Every item is in one group. -/
theorem sum_length_group (items : List (K × X)) :
    ((group items).map fun entry => entry.2.length).sum = items.length := by
  have hcount : ((group items).map fun entry => entry.2.length) =
      ((group items).map Prod.fst).map fun key => (items.map Prod.fst).count key := by
    rw [List.map_map]
    refine List.map_congr_left fun entry hentry => ?_
    obtain ⟨-, hvalues⟩ := mem_group.mp (hentry : (entry.1, entry.2) ∈ group items)
    rw [Function.comp_apply, hvalues, List.length_map, List.count, List.countP_map,
      List.countP_eq_length_filter]
    refine congrArg List.length (List.filter_congr fun item _ => ?_)
    rw [Bool.eq_iff_iff]
    simp
  have hkeys : ((group items).map Prod.fst).Perm (items.map Prod.fst).dedup :=
    (List.perm_ext_iff_of_nodup (nodup_keys_group items) (List.nodup_dedup _)).mpr fun key => by
      rw [mem_keys_group, List.mem_dedup]
  rw [hcount, (hkeys.map _).sum_eq, List.sum_map_count_dedup_eq_length, List.length_map]

end Justup.Lib.Dict
