import Mathlib.Tactic
import Mathlib.Data.List.Nodup

/-!
# Dictionaries that keep the order of insertion

A dictionary is a list of entries with distinct keys.  Setting a key that is there replaces its
value in place, setting another key puts it at the end, and an iteration goes through the entries
from first to last.
-/

/-- A dictionary with text keys. -/
@[ext]
structure Dict (α : Type) where
  entries : List (String × α)
  nodup_keys : (entries.map Prod.fst).Nodup

namespace Dict

variable {α : Type}

/-- The empty dictionary. -/
def empty : Dict α := ⟨[], List.nodup_nil⟩

/-- The value of a key. -/
def get? (d : Dict α) (k : String) : Option α := (d.entries.find? (·.1 = k)).map Prod.snd

/-- The keys, in order. -/
def keys (d : Dict α) : List String := d.entries.map Prod.fst

/-- The values, in order. -/
def values (d : Dict α) : List α := d.entries.map Prod.snd

/-- Replace the value of a key, or put the key at the end. -/
def setEntries (k : String) (a : α) : List (String × α) → List (String × α)
  | [] => [(k, a)]
  | e :: es => if e.1 = k then (k, a) :: es else e :: setEntries k a es

/-- What is set is the new entry or an old one. -/
lemma mem_setEntries {k : String} {a : α} {es : List (String × α)} {e : String × α}
    (h : e ∈ setEntries k a es) : e = (k, a) ∨ e ∈ es := by
  induction es with
  | nil => exact .inl (List.mem_singleton.mp h)
  | cons e' es ih =>
    rw [setEntries] at h
    split at h
    · rcases List.mem_cons.mp h with rfl | h
      · exact .inl rfl
      · exact .inr (List.mem_cons_of_mem _ h)
    · rcases List.mem_cons.mp h with rfl | h
      · exact .inr List.mem_cons_self
      · exact (ih h).imp_right (List.mem_cons_of_mem _)

/-- Setting a key again replaces its value. -/
lemma setEntries_setEntries (k : String) (a b : α) (es : List (String × α)) :
    setEntries k b (setEntries k a es) = setEntries k b es := by
  induction es with
  | nil => simp [setEntries]
  | cons e es ih =>
    by_cases he : e.1 = k
    · simp [setEntries, he]
    · simp [setEntries, he, ih]

/-- Setting a key adds at most this key. -/
lemma mem_keys_setEntries {k k' : String} {a : α} {es : List (String × α)} :
    k' ∈ (setEntries k a es).map Prod.fst ↔ k' = k ∨ k' ∈ es.map Prod.fst := by
  induction es with
  | nil => simp [setEntries]
  | cons e es ih =>
    rw [setEntries]
    split
    · rename_i heq
      simp [heq]
    · rw [List.map_cons, List.mem_cons, ih, List.map_cons, List.mem_cons]
      tauto

/-- Setting a key keeps the keys distinct. -/
lemma nodup_setEntries {k : String} {a : α} {es : List (String × α)}
    (h : (es.map Prod.fst).Nodup) : ((setEntries k a es).map Prod.fst).Nodup := by
  induction es with
  | nil => simp [setEntries]
  | cons e es ih =>
    rw [List.map_cons, List.nodup_cons] at h
    rw [setEntries]
    split
    · rename_i heq
      rw [List.map_cons, List.nodup_cons, ← heq]
      exact h
    · rename_i hne
      rw [List.map_cons, List.nodup_cons, mem_keys_setEntries, not_or]
      exact ⟨⟨hne, h.1⟩, ih h.2⟩

/-- `d[k] = a`. -/
def set (d : Dict α) (k : String) (a : α) : Dict α :=
  ⟨setEntries k a d.entries, nodup_setEntries d.nodup_keys⟩

/-- `del d[k]`, which does nothing here when the key is missing. -/
def erase (d : Dict α) (k : String) : Dict α where
  entries := d.entries.filter (·.1 ≠ k)
  nodup_keys := d.nodup_keys.sublist (List.filter_sublist.map _)

/-! ## Entries -/

/-- A key that is missing has no value. -/
lemma get?_eq_none {d : Dict α} {k : String} : d.get? k = none ↔ k ∉ d.keys := by
  rw [get?, Option.map_eq_none_iff, List.find?_eq_none, keys, List.mem_map, not_exists]
  refine forall_congr' fun e => ?_
  rw [decide_eq_true_eq, not_and]

/-- A key is not before or after its place. -/
lemma notMem_of_split {d : Dict α} {pre post : List (String × α)} {k : String} {a : α}
    (h : d.entries = pre ++ (k, a) :: post) :
    k ∉ pre.map Prod.fst ∧ k ∉ post.map Prod.fst := by
  have hnodup := d.nodup_keys
  rw [h, List.map_append, List.map_cons, List.nodup_append, List.nodup_cons] at hnodup
  exact ⟨fun hmem => hnodup.2.2 k hmem k List.mem_cons_self rfl, hnodup.2.1.1⟩

/-- The value of a key is that of its entry. -/
lemma get?_of_split {d : Dict α} {pre post : List (String × α)} {k : String} {a : α}
    (h : d.entries = pre ++ (k, a) :: post) : d.get? k = some a := by
  have hpre : pre.find? (·.1 = k) = none := by
    refine List.find?_eq_none.mpr fun e he heq => (notMem_of_split h).1 ?_
    have : e.1 = k := by simpa using heq
    exact this ▸ List.mem_map_of_mem he
  rw [get?, h, List.find?_append, hpre]
  simp

/-- A key with a value has an entry. -/
lemma exists_split {d : Dict α} {k : String} {a : α} (h : d.get? k = some a) :
    ∃ pre post, d.entries = pre ++ (k, a) :: post := by
  obtain ⟨⟨k', a'⟩, hfind, rfl⟩ := Option.map_eq_some_iff.mp h
  have hk : k' = k := by simpa using List.find?_some hfind
  obtain ⟨pre, post, hsplit⟩ := List.append_of_mem (List.mem_of_find?_eq_some hfind)
  exact ⟨pre, post, by rw [hsplit, hk]⟩

/-! ## Setting and erasing -/

/-- A new key goes to the end. -/
lemma set_of_notMem {d : Dict α} {k : String} {a : α} (h : k ∉ d.keys) :
    (d.set k a).entries = d.entries ++ [(k, a)] := by
  have haux : ∀ es : List (String × α), k ∉ es.map Prod.fst →
      setEntries k a es = es ++ [(k, a)] := by
    intro es hes
    induction es with
    | nil => rfl
    | cons e es ih =>
      rw [List.map_cons, List.mem_cons, not_or] at hes
      rw [setEntries, if_neg (Ne.symm hes.1), ih hes.2, List.cons_append]
  exact haux d.entries h

/-- A key that is there keeps its place. -/
lemma set_of_split {d : Dict α} {pre post : List (String × α)} {k : String} {a b : α}
    (h : d.entries = pre ++ (k, a) :: post) : (d.set k b).entries = pre ++ (k, b) :: post := by
  have haux : ∀ es : List (String × α), k ∉ es.map Prod.fst →
      setEntries k b (es ++ (k, a) :: post) = es ++ (k, b) :: post := by
    intro es hes
    induction es with
    | nil => simp [setEntries]
    | cons e es ih =>
      rw [List.map_cons, List.mem_cons, not_or] at hes
      rw [List.cons_append, setEntries, if_neg (Ne.symm hes.1), ih hes.2, List.cons_append]
  change setEntries k b d.entries = _
  rw [h]
  exact haux pre (notMem_of_split h).1

/-- A key that was set has the value. -/
lemma get?_set_self {d : Dict α} {k : String} {a : α} : (d.set k a).get? k = some a := by
  rcases hk : d.get? k with _ | b
  · exact get?_of_split (set_of_notMem (get?_eq_none.mp hk))
  · obtain ⟨pre, post, hsplit⟩ := exists_split hk
    exact get?_of_split (set_of_split hsplit)

/-- Erasing a key takes out its entry. -/
lemma erase_of_split {d : Dict α} {pre post : List (String × α)} {k : String} {a : α}
    (h : d.entries = pre ++ (k, a) :: post) : (d.erase k).entries = pre ++ post := by
  have hkeep : ∀ es : List (String × α), k ∉ es.map Prod.fst → es.filter (·.1 ≠ k) = es := by
    intro es hes
    refine List.filter_eq_self.mpr fun e he => ?_
    simp only [ne_eq, decide_not, Bool.not_eq_eq_eq_not, Bool.not_true, decide_eq_false_iff_not]
    exact fun heq => hes (heq ▸ List.mem_map_of_mem he)
  obtain ⟨hpre, hpost⟩ := notMem_of_split h
  change d.entries.filter (·.1 ≠ k) = _
  rw [h, List.filter_append, hkeep pre hpre, List.filter_cons, hkeep post hpost]
  simp

/-- A key that was erased has no value. -/
lemma get?_erase_self {d : Dict α} {k : String} : (d.erase k).get? k = none := by
  rw [get?_eq_none, keys, erase, List.mem_map]
  rintro ⟨e, he, heq⟩
  have hne := (List.mem_filter.mp he).2
  simp [heq] at hne

/-- Erasing a key keeps the values of the others. -/
lemma get?_erase_of_ne {d : Dict α} {k k' : String} (h : k ≠ k') :
    (d.erase k').get? k = d.get? k := by
  rw [get?, get?, erase, List.find?_filter]
  congr 2
  funext e
  by_cases he : e.1 = k
  · simp [he, h]
  · simp [he]

/-- Erasing a key that was just set is erasing it. -/
lemma erase_set_self {d : Dict α} {k : String} {a : α} : (d.set k a).erase k = d.erase k := by
  ext1
  rcases hk : d.get? k with _ | b
  · change (d.set k a).entries.filter (·.1 ≠ k) = d.entries.filter (·.1 ≠ k)
    rw [set_of_notMem (get?_eq_none.mp hk), List.filter_append]
    simp
  · obtain ⟨pre, post, hsplit⟩ := exists_split hk
    rw [erase_of_split hsplit, erase_of_split (set_of_split hsplit)]

/-- Setting a key again replaces its value. -/
lemma set_set_self {d : Dict α} {k : String} {a b : α} : (d.set k a).set k b = d.set k b := by
  ext1
  rcases hk : d.get? k with _ | c
  · have hmissing := get?_eq_none.mp hk
    rw [set_of_split (set_of_notMem hmissing), set_of_notMem hmissing]
  · obtain ⟨pre, post, hsplit⟩ := exists_split hk
    rw [set_of_split (set_of_split hsplit), set_of_split hsplit]

/-- Setting a key keeps the values of the others. -/
lemma get?_set_of_ne {d : Dict α} {k k' : String} {a : α} (h : k' ≠ k) :
    (d.set k a).get? k' = d.get? k' := by
  rw [← get?_erase_of_ne h, erase_set_self, get?_erase_of_ne h]

/-- Erasing a key again changes nothing. -/
lemma erase_erase_self {d : Dict α} {k : String} : (d.erase k).erase k = d.erase k := by
  ext1
  change (d.entries.filter (·.1 ≠ k)).filter (·.1 ≠ k) = d.entries.filter (·.1 ≠ k)
  rw [List.filter_filter]
  simp

end Dict
