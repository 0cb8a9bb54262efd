import Mathlib.Tactic
import Mathlib.Data.List.Nodup

/-!
# Tables with automatic keys

A table is a list of rows.  Every row has a natural number as key, and the next row gets the next
number.  Rows that are grouped in some other way, as the concatenation of groups, keep their
keys, so a row belongs to one place of one group.
-/

namespace Table

variable {α β : Type}

/-- The rows have distinct keys, all below the next one. -/
structure Keyed (key : α → ℕ) (rows : List α) (next : ℕ) : Prop where
  nodup : (rows.map key).Nodup
  lt : ∀ r ∈ rows, key r < next

/-- A row with the next key can be added. -/
lemma Keyed.concat {key : α → ℕ} {rows : List α} {next : ℕ} (h : Keyed key rows next) {r : α}
    (hr : key r = next) : Keyed key (rows ++ [r]) (next + 1) where
  nodup := by
    rw [List.map_append, List.map_singleton, List.nodup_append]
    refine ⟨h.nodup, List.nodup_singleton _, fun k hk k' hk' heq => ?_⟩
    obtain ⟨x, hx, rfl⟩ := List.mem_map.mp hk
    rw [List.mem_singleton] at hk'
    have := h.lt x hx
    omega
  lt x hx := by
    rcases List.mem_append.mp hx with hx | hx
    · exact Nat.lt_succ_of_lt (h.lt x hx)
    · rw [List.mem_singleton.mp hx, hr]
      exact Nat.lt_succ_self _

/-- A key that has been given out for a row that is not in the table. -/
structure Reserved (key : α → ℕ) (rows : List α) (next k : ℕ) : Prop where
  lt : k < next
  free : ∀ r ∈ rows, key r ≠ k

/-- Giving out the next key. -/
lemma Keyed.reserve {key : α → ℕ} {rows : List α} {next : ℕ} (h : Keyed key rows next) :
    Keyed key rows (next + 1) ∧ Reserved key rows (next + 1) next :=
  ⟨⟨h.nodup, fun r hr => Nat.lt_succ_of_lt (h.lt r hr)⟩, Nat.lt_succ_self _,
    fun r hr => (h.lt r hr).ne⟩

/-- A row with a reserved key can be added. -/
lemma Keyed.concat_reserved {key : α → ℕ} {rows : List α} {next : ℕ} (h : Keyed key rows next)
    {r : α} (hr : Reserved key rows next (key r)) : Keyed key (rows ++ [r]) next where
  nodup := by
    rw [List.map_append, List.map_singleton, List.nodup_append]
    refine ⟨h.nodup, List.nodup_singleton _, fun k hk k' hk' heq => ?_⟩
    obtain ⟨x, hx, rfl⟩ := List.mem_map.mp hk
    rw [List.mem_singleton] at hk'
    exact hr.free x hx (heq.trans hk')
  lt x hx := by
    rcases List.mem_append.mp hx with hx | hx
    · exact h.lt x hx
    · rw [List.mem_singleton.mp hx]
      exact hr.lt

/-- A reserved key stays reserved when more keys are given out. -/
lemma Reserved.mono {key : α → ℕ} {rows : List α} {next next' k : ℕ}
    (h : Reserved key rows next k) (hle : next ≤ next') : Reserved key rows next' k :=
  ⟨h.lt.trans_le hle, h.free⟩

/-- A reserved key stays reserved when a row with another key is added. -/
lemma Reserved.concat {key : α → ℕ} {rows : List α} {next k : ℕ} (h : Reserved key rows next k)
    {r : α} (hr : key r ≠ k) : Reserved key (rows ++ [r]) next k where
  lt := h.lt
  free x hx := by
    rcases List.mem_append.mp hx with hx | hx
    · exact h.free x hx
    · rw [List.mem_singleton.mp hx]
      exact hr

/-- Rows with the same key are equal. -/
lemma Keyed.inj {key : α → ℕ} {rows : List α} {next : ℕ} (h : Keyed key rows next) {r r' : α}
    (hr : r ∈ rows) (hr' : r' ∈ rows) (hkey : key r = key r') : r = r' :=
  List.inj_on_of_nodup_map h.nodup hr hr' hkey

/-- A search finds the only row that meets its condition. -/
lemma find?_eq_some_of_unique {p : α → Bool} {rows : List α} {r : α} (hr : r ∈ rows)
    (hp : p r = true) (hunique : ∀ x ∈ rows, p x = true → x = r) : rows.find? p = some r := by
  rcases hfind : rows.find? p with _ | x
  · exact absurd hp (List.find?_eq_none.mp hfind r hr)
  · rw [hunique x (List.mem_of_find?_eq_some hfind) (List.find?_some hfind)]

/-- A filter keeps the only row that meets its condition. -/
lemma filter_eq_singleton_of_unique {p : α → Bool} {rows : List α} {r : α} (hrows : rows.Nodup)
    (hr : r ∈ rows) (hp : p r = true) (hunique : ∀ x ∈ rows, p x = true → x = r) :
    rows.filter p = [r] := by
  have hmem : ∀ x, x ∈ rows.filter p ↔ x ∈ [r] := by
    intro x
    rw [List.mem_filter, List.mem_singleton]
    exact ⟨fun h => hunique x h.1 h.2, fun h => h ▸ ⟨hr, hp⟩⟩
  exact List.perm_singleton.mp
    ((List.perm_ext_iff_of_nodup (hrows.filter p) (List.nodup_singleton r)).mpr hmem)

/-! ## Groups of rows -/

/-- Two ways to find the same key in a list find it at the same place. -/
lemma split_eq_of_nodup {key : α → ℕ} {rows pre pre' post post' : List α} {r r' : α}
    (hrows : (rows.map key).Nodup) (h : rows = pre ++ r :: post)
    (h' : rows = pre' ++ r' :: post') (hkey : key r = key r') :
    pre = pre' ∧ r = r' ∧ post = post' := by
  have hget : rows[pre.length]? = some r := by simp [h]
  have hget' : rows[pre'.length]? = some r' := by simp [h']
  obtain ⟨hlt, hr⟩ := List.getElem?_eq_some_iff.mp hget
  obtain ⟨hlt', hr'⟩ := List.getElem?_eq_some_iff.mp hget'
  have hlen : pre.length = pre'.length := by
    have hi : pre.length < (rows.map key).length := by simpa using hlt
    have hj : pre'.length < (rows.map key).length := by simpa using hlt'
    refine (@List.Nodup.getElem_inj_iff _ _ hrows _ hi _ hj).mp ?_
    rw [List.getElem_map, List.getElem_map, hr, hr', hkey]
  obtain ⟨hpre, hrest⟩ := List.append_inj (h.symm.trans h') hlen
  obtain ⟨hr, hpost⟩ := List.cons.inj hrest
  exact ⟨hpre, hr, hpost⟩

/-- Two groups that share a key are the same group. -/
lemma group_eq_of_key_eq {key : α → ℕ} {rows : β → List α} {groups : List β}
    (h : ((groups.flatMap rows).map key).Nodup) {g g' : β} (hg : g ∈ groups) (hg' : g' ∈ groups)
    {r r' : α} (hr : r ∈ rows g) (hr' : r' ∈ rows g') (hkey : key r = key r') : g = g' := by
  rw [List.map_flatMap, List.nodup_flatMap] at h
  by_contra hne
  have : Std.Symm (Function.onFun List.Disjoint fun a => (rows a).map key) :=
    ⟨fun _ _ hd => List.Disjoint.symm hd⟩
  have hdisjoint := h.2.forall hg hg' hne
  exact hdisjoint (List.mem_map_of_mem hr) (hkey ▸ List.mem_map_of_mem hr')

/-- The keys of one group are distinct. -/
lemma group_nodup {key : α → ℕ} {rows : β → List α} {groups : List β}
    (h : ((groups.flatMap rows).map key).Nodup) {g : β} (hg : g ∈ groups) :
    ((rows g).map key).Nodup := by
  rw [List.map_flatMap, List.nodup_flatMap] at h
  exact h.1 g hg

/-- The keys of a group occur in no other group. -/
lemma group_disjoint {key : α → ℕ} {rows : β → List α} {pre post : List β} {g g' : β}
    (h : (((pre ++ g :: post).flatMap rows).map key).Nodup) (hg' : g' ∈ pre ++ post) {r r' : α}
    (hr : r ∈ rows g) (hr' : r' ∈ rows g') : key r ≠ key r' := by
  rw [List.map_flatMap, List.nodup_flatMap, List.pairwise_append, List.pairwise_cons] at h
  obtain ⟨-, -, ⟨hpost, -⟩, hpre⟩ := h
  intro hkey
  rcases List.mem_append.mp hg' with hg' | hg'
  · exact hpre g' hg' g List.mem_cons_self (List.mem_map_of_mem hr')
      (hkey ▸ List.mem_map_of_mem hr)
  · exact hpost g' hg' (List.mem_map_of_mem hr) (hkey ▸ List.mem_map_of_mem hr')

/-- A filter that keeps exactly the rows of one group. -/
lemma filter_perm_group {p : α → Bool} {rows : β → List α} {pre post : List β} {g : β}
    {all : List α} (h : ((pre ++ g :: post).flatMap rows).Perm all)
    (hin : ∀ r ∈ rows g, p r = true) (hout : ∀ g' ∈ pre ++ post, ∀ r ∈ rows g', p r = false) :
    (all.filter p).Perm (rows g) := by
  have hnone : ∀ gs : List β, (∀ g' ∈ gs, ∀ r ∈ rows g', p r = false) →
      (gs.flatMap rows).filter p = [] := by
    intro gs hgs
    refine List.filter_eq_nil_iff.mpr fun r hr => ?_
    obtain ⟨g', hg', hr⟩ := List.mem_flatMap.mp hr
    rw [hgs g' hg' r hr]
    decide
  refine (h.filter p).symm.trans (List.Perm.of_eq ?_)
  rw [List.flatMap_append, List.flatMap_cons, List.filter_append, List.filter_append,
    hnone pre fun g' hg' => hout g' (List.mem_append_left _ hg'),
    hnone post fun g' hg' => hout g' (List.mem_append_right _ hg'), List.filter_eq_self.mpr hin,
    List.nil_append, List.append_nil]

/-- A row added to one group is a row added to all of them. -/
lemma perm_flatMap_concat {rows : β → List α} {pre post : List β} {g g' : β} {r : α}
    {all : List α} (h : ((pre ++ g :: post).flatMap rows).Perm all) (hg : rows g' = rows g ++ [r]) :
    ((pre ++ g' :: post).flatMap rows).Perm (all ++ [r]) := by
  refine List.Perm.trans ?_ (h.append_right [r])
  rw [List.flatMap_append, List.flatMap_append, List.flatMap_cons, List.flatMap_cons, hg]
  simp only [List.append_assoc]
  refine List.Perm.append_left _ (List.Perm.append_left _ ?_)
  exact List.perm_append_comm

end Table
