import FieldCrypt.Proofs.Store.Ranking
import Mathlib.Data.List.Induction
import Mathlib.Data.List.Perm.Subperm

/-!
# Lists that differ in one entry

A list drops its entries in the order of their last use: an entry that is not used again stays no
longer than one that was used after it. A list that one entry was taken out of has the others in the
same order, and it keeps them so under any changes that the whole list undergoes with it. All that it
can have beyond the whole list is one entry, the next one to be dropped.
-/

namespace FieldCrypt.Recency

variable {κ α : Type} [DecidableEq κ] {list other : Recency κ α} {key first second missing : κ}
variable {keys leader follower : List κ}

omit [DecidableEq κ] in
/-- The keys of a list, the one that was used last first. -/
def order (list : Recency κ α) : List κ := list.entries.map Prod.fst

omit [DecidableEq κ] in
/-- Both keys have entries, and the first was used after the second. -/
def Newer (list : Recency κ α) (first second : κ) : Prop := [first, second].Sublist list.order

/-- An order with a key brought to the front. -/
def front (key : κ) (keys : List κ) : List κ := key :: keys.filter (· ≠ key)

theorem mem_front : first ∈ front key keys ↔ first = key ∨ first ∈ keys := by
  by_cases same : first = key <;> simp [front, same]

theorem nodup_front (nodup : keys.Nodup) (key : κ) : (front key keys).Nodup :=
  List.nodup_cons.mpr ⟨by simp, nodup.filter _⟩

theorem mem_order_iff : key ∈ list.order ↔ (list.peek? key).isSome := by
  simp [order, peek?]

theorem order_erase (list : Recency κ α) (key : κ) :
    (list.erase key).order = list.order.filter (· ≠ key) := by
  rw [order, order, List.filter_map]
  rfl

theorem order_touch (held : key ∈ list.order) : (list.touch key).order = front key list.order := by
  obtain ⟨value, found⟩ := Option.isSome_iff_exists.mp (mem_order_iff.mp held)
  rw [touch, found, front, ← order_erase]
  rfl

theorem touch_of_not_mem (missed : key ∉ list.order) : list.touch key = list := by
  rw [mem_order_iff, Option.not_isSome_iff_eq_none] at missed
  rw [touch, missed]

theorem order_put (list : Recency κ α) (key : κ) (value : α) :
    (list.put key value).order = (front key list.order).take list.limit := by
  rw [front, ← order_erase]
  exact List.map_take

/-- Using an entry of a tidy list changes nothing but the order. -/
theorem Tidy.perm_touch (tidy : list.Tidy) (key : κ) :
    (list.touch key).entries.Perm list.entries := by
  refine (List.perm_ext_iff_of_nodup (tidy.touch key).nodup.of_map tidy.nodup.of_map).mpr ?_
  rintro ⟨own, value⟩
  calc
    (own, value) ∈ (list.touch key).entries
    _ ↔ (list.touch key).peek? own = some value := (tidy.touch key).peek?_eq_some_iff.symm
    _ ↔ list.peek? own = some value := by rw [peek?_touch]
    _ ↔ (own, value) ∈ list.entries := tidy.peek?_eq_some_iff

/-- What can happen to a list. -/
inductive Change (κ α : Type) where
  | touch (key : κ)
  | put (key : κ) (value : α)
  | erase (key : κ)
  | clear
  | keep

namespace Change

/-- The list after a change. -/
def apply (list : Recency κ α) : Change κ α → Recency κ α
  | touch key => list.touch key
  | put key value => list.put key value
  | erase key => list.erase key
  | clear => list.clear
  | keep => list

/-- The key that is used. -/
def used? : Change κ α → Option κ
  | touch key | put key _ => some key
  | erase _ | clear | keep => none

/-- The key whose entry is taken out. -/
def erased? : Change κ α → Option κ
  | erase key => some key
  | touch _ | put .. | clear | keep => none

end Change

theorem filter_pair (firstOther : first ≠ key) (secondOther : second ≠ key) :
    [first, second].filter (· ≠ key) = [first, second] := by
  simp [firstOther, secondOther]

/-- Taking out an entry leaves the order of any two others. -/
theorem newer_erase (firstOther : first ≠ key) (secondOther : second ≠ key) :
    (list.erase key).Newer first second ↔ list.Newer first second := by
  rw [Newer, Newer, order_erase]
  constructor
  · exact fun pair => pair.trans List.filter_sublist
  · intro pair
    rw [← filter_pair firstOther secondOther]
    exact pair.filter _

/-- The second key has an entry only as long as the first has a newer one. -/
def Outlasts (list : Recency κ α) (first second : κ) : Prop :=
  second ∈ list.order → list.Newer first second

theorem pair_sublist_front (unused : key ≠ second) (pair : [first, second].Sublist keys) :
    [first, second].Sublist (front key keys) := by
  by_cases same : first = key
  · subst same
    have there : second ∈ keys := pair.subset (by simp)
    refine List.Sublist.cons_cons _ (List.singleton_sublist.mpr ?_)
    exact List.mem_filter.mpr ⟨there, by simpa using unused.symm⟩
  · rw [← filter_pair same unused.symm]
    exact (pair.filter _).trans (List.sublist_cons_self _ _)

omit [DecidableEq κ] in
/-- As long as the second of two keys is among the first keys of an order, so are both. -/
theorem pair_sublist_take (nodup : keys.Nodup) (pair : [first, second].Sublist keys) {count : Nat}
    (there : second ∈ keys.take count) : [first, second].Sublist (keys.take count) := by
  have apart := List.disjoint_take_drop nodup (Nat.le_refl count)
  rw [← List.take_append_drop count keys] at pair
  obtain ⟨front, back, split, kept, dropped⟩ := List.sublist_append_iff.mp pair
  cases back using List.reverseRecOn with
  | nil =>
      rw [split, List.append_nil]
      exact kept
  | append_singleton back last =>
      have ends := congrArg List.getLast? split
      rw [← List.append_assoc, List.getLast?_concat] at ends
      obtain rfl : second = last := Option.some.inj ends
      exact (apart there (dropped.subset (by simp))).elim

theorem Outlasts.apply (outlasts : list.Outlasts first second) (tidy : list.Tidy)
    {change : Change κ α} (unused : change.used? ≠ some second)
    (kept : change.erased? ≠ some first) : (change.apply list).Outlasts first second := by
  intro there
  cases change with
  | touch key =>
      have differ : key ≠ second := fun same => unused (congrArg some same)
      by_cases held : key ∈ list.order
      · simp only [Change.apply, Newer, order_touch held] at there ⊢
        exact pair_sublist_front differ (outlasts ((mem_front.mp there).resolve_left differ.symm))
      · simp only [Change.apply, touch_of_not_mem held] at there ⊢
        exact outlasts there
  | put key value =>
      have differ : key ≠ second := fun same => unused (congrArg some same)
      simp only [Change.apply, Newer, order_put] at there ⊢
      refine pair_sublist_take (nodup_front tidy.nodup key) (pair_sublist_front differ ?_) there
      exact outlasts ((mem_front.mp (List.mem_of_mem_take there)).resolve_left differ.symm)
  | erase key =>
      have firstOther : first ≠ key := fun same => kept (congrArg some same.symm)
      simp only [Change.apply, order_erase, List.mem_filter, decide_eq_true_eq] at there ⊢
      exact (newer_erase firstOther there.2).mpr (outlasts there.1)
  | clear => cases there
  | keep => exact outlasts there

/-- The follower has the keys of the leader in the same order, all but possibly `missing`, and at most
one further key, behind the others. -/
def Behind (missing : κ) (leader follower : List κ) : Prop :=
  ∃ shared extra, follower = shared ++ extra ∧ shared.Sublist leader ∧
    (∀ key ∈ leader, key ≠ missing → key ∈ shared) ∧
    extra.length ≤ 1 ∧ ∀ key ∈ extra, key ∉ leader

omit [DecidableEq κ] in
/-- The leader's only key that the follower can be without is the missing one. -/
theorem Behind.eq_missing (behind : Behind missing leader follower) (led : key ∈ leader)
    (gone : key ∉ follower) : key = missing := by
  obtain ⟨shared, extra, rfl, -, complete, -, -⟩ := behind
  by_contra differ
  exact gone (List.mem_append_left extra (complete key led differ))

theorem Behind.filter (behind : Behind missing leader follower) (key : κ) :
    Behind missing (leader.filter (· ≠ key)) (follower.filter (· ≠ key)) := by
  obtain ⟨shared, extra, rfl, same, complete, few, further⟩ := behind
  refine ⟨_, _, List.filter_append _ _, same.filter _, ?_, ?_, ?_⟩
  · intro other there differ
    obtain ⟨there, kept⟩ := List.mem_filter.mp there
    exact List.mem_filter.mpr ⟨complete other there differ, kept⟩
  · exact Nat.le_trans (List.length_filter_le _ _) few
  · intro other there led
    exact further other (List.mem_of_mem_filter there) (List.mem_of_mem_filter led)

theorem Behind.front (behind : Behind missing leader follower) (key : κ) :
    Behind missing (front key leader) (front key follower) := by
  obtain ⟨shared, extra, split, same, complete, few, further⟩ := behind.filter key
  refine ⟨key :: shared, extra, congrArg (key :: ·) split, same.cons_cons key, ?_, few, ?_⟩
  · intro other there differ
    refine (List.mem_cons.mp there).elim (fun own => own ▸ List.mem_cons_self) fun there => ?_
    exact List.mem_cons_of_mem key (complete other there differ)
  · intro other there led
    rcases List.mem_cons.mp led with rfl | led
    · have member : other ∈ follower.filter (· ≠ other) := split ▸ List.mem_append_right _ there
      simp at member
    · exact further other there led

/-- Nothing is to be done when the missing key is brought to the front. -/
theorem Behind.front_missing (behind : Behind missing leader follower) (gone : missing ∉ follower) :
    Behind missing (Recency.front missing leader) follower := by
  obtain ⟨shared, extra, rfl, same, complete, few, further⟩ := behind
  rw [List.mem_append, not_or] at gone
  have all : shared.filter (· ≠ missing) = shared := by
    rw [List.filter_eq_self]
    intro key there
    exact decide_eq_true fun own => gone.1 (own ▸ there)
  refine ⟨shared, extra, rfl, ?_, ?_, few, ?_⟩
  · rw [← all]
    exact (same.filter _).trans (List.sublist_cons_self _ _)
  · intro key there differ
    exact complete key ((mem_front.mp there).resolve_left differ) differ
  · intro key there led
    rcases mem_front.mp led with rfl | led
    · exact gone.2 there
    · exact further key there led

omit [DecidableEq κ] in
/-- When both orders are cut to a length that the leader exceeds by one key at most, the follower
loses its further key, or has what the leader loses for it. -/
theorem Behind.take (behind : Behind missing leader follower) (nodup : leader.Nodup)
    {count : Nat} (size : leader.length ≤ count + 1) :
    Behind missing (leader.take count) (follower.take count) := by
  obtain ⟨shared, extra, rfl, same, complete, few, further⟩ := behind
  have apart := List.disjoint_take_drop nodup (Nat.le_refl count)
  rw [← List.take_append_drop count leader] at same
  obtain ⟨kept, lost, rfl, keptSame, lostSame⟩ := List.sublist_append_iff.mp same
  have complete : ∀ key ∈ leader.take count, key ≠ missing → key ∈ kept := by
    intro key there differ
    rcases List.mem_append.mp (complete key (List.mem_of_mem_take there) differ) with found | found
    · exact found
    · exact (apart there (lostSame.subset found)).elim
  have fits : kept.length ≤ count :=
    Nat.le_trans keptSame.length_le (List.length_take_le count leader)
  refine ⟨kept, (lost ++ extra).take (count - kept.length), ?_, keptSame, complete, ?_, ?_⟩
  · rw [List.append_assoc, List.take_append, List.take_of_length_le fits]
  · -- The kept keys fill the length but for one, unless the leader loses nothing.
    have covered : leader.take count ⊆ missing :: kept := by
      intro key there
      by_cases own : key = missing
      · exact own ▸ List.mem_cons_self
      · exact List.mem_cons_of_mem missing (complete key there own)
    have most := ((nodup.sublist (List.take_sublist count leader)).subperm covered).length_le
    have lostFew := lostSame.length_le
    simp only [List.length_take, List.length_drop, List.length_cons, List.length_append] at *
    omega
  · intro key there led
    rcases List.mem_append.mp (List.mem_of_mem_take there) with found | found
    · exact apart led (lostSame.subset found)
    · exact further key found (List.mem_of_mem_take led)

/-- A list that an entry was taken out of is behind the whole list. -/
theorem behind_erase (list : Recency κ α) (key : κ) :
    Behind key list.order (list.erase key).order := by
  refine ⟨list.order.filter (· ≠ key), [], ?_, List.filter_sublist, ?_, Nat.zero_le 1, nofun⟩
  · rw [order_erase, List.append_nil]
  · intro other there differ
    exact List.mem_filter.mpr ⟨there, decide_eq_true differ⟩

/-- A list stays behind another one under the same changes, as long as it is not its further key that
is used. -/
theorem Behind.apply (behind : Behind missing list.order other.order) (tidy : list.Tidy)
    (limits : other.limit = list.limit) {change : Change κ α}
    (shared : ∀ key, change = .touch key → key ∈ other.order → key ∈ list.order) :
    Behind missing (change.apply list).order (change.apply other).order := by
  cases change with
  | touch key =>
      simp only [Change.apply]
      by_cases held : key ∈ other.order
      · rw [order_touch held, order_touch (shared key rfl held)]
        exact behind.front key
      · rw [touch_of_not_mem held]
        by_cases led : key ∈ list.order
        · obtain rfl := behind.eq_missing led held
          rw [order_touch led]
          exact behind.front_missing held
        · rw [touch_of_not_mem led]
          exact behind
  | put key value =>
      simp only [Change.apply, order_put, limits]
      apply (behind.front key).take (nodup_front tidy.nodup key)
      have others := List.length_filter_le (fun own => decide (own ≠ key)) list.order
      have size : list.order.length ≤ list.limit := by
        rw [order, List.length_map]
        exact tidy.size_le
      rw [Recency.front, List.length_cons]
      omega
  | erase key =>
      simp only [Change.apply, order_erase]
      exact behind.filter key
  | clear => exact ⟨[], [], rfl, List.Sublist.refl [], nofun, Nat.zero_le 1, nofun⟩
  | keep => exact behind

end FieldCrypt.Recency
