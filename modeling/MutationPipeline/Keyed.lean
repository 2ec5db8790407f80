/-!
Values kept under texts, in the order of the texts' code points and at most one under each.
Two keyed collections that hold the same are equal.
-/
namespace MutationPipeline

structure Keyed (α : Type) where
  entries : List (String × α)
  ordered : entries.Pairwise fun a b => a.1 < b.1

namespace Keyed

def empty : Keyed α := ⟨[], .nil⟩

instance : Inhabited (Keyed α) := ⟨empty⟩

/-- Puts an entry in front of the first greater key; an entry with the same key gives way. -/
def insertEntry (key : String) (value : α) : List (String × α) → List (String × α)
  | [] => [(key, value)]
  | (k, v) :: rest =>
    if key < k then (key, value) :: (k, v) :: rest
    else if key = k then (key, value) :: rest
    else (k, v) :: insertEntry key value rest

theorem memInsertEntry {key : String} {value : α} {e : String × α} {es : List (String × α)}
    (h : e ∈ insertEntry key value es) : e = (key, value) ∨ e ∈ es := by
  induction es with
  | nil => simpa [insertEntry] using h
  | cons first rest ih =>
    simp only [insertEntry] at h
    split at h
    · simpa using h
    · split at h
      · rcases List.mem_cons.1 h with h | h
        · exact .inl h
        · exact .inr (List.mem_cons_of_mem _ h)
      · rcases List.mem_cons.1 h with h | h
        · exact .inr (h ▸ List.mem_cons_self)
        · exact (ih h).imp id (List.mem_cons_of_mem _)

theorem orderedInsertEntry {key : String} {value : α} {es : List (String × α)}
    (h : es.Pairwise fun a b => a.1 < b.1) :
    (insertEntry key value es).Pairwise fun a b => a.1 < b.1 := by
  induction es with
  | nil => simp [insertEntry]
  | cons first rest ih =>
    obtain ⟨below, tail⟩ := List.pairwise_cons.1 h
    simp only [insertEntry]
    split
    · next less =>
      refine List.pairwise_cons.2 ⟨fun e he => ?_, h⟩
      rcases List.mem_cons.1 he with rfl | he
      · exact less
      · exact String.lt_trans less (below e he)
    · split
      · next same => exact List.pairwise_cons.2 ⟨fun e he => same ▸ below e he, tail⟩
      · next notLess notSame =>
        refine List.pairwise_cons.2 ⟨fun e he => ?_, ih tail⟩
        rcases memInsertEntry he with rfl | he
        · rcases Decidable.em (first.1 < key) with less | more
          · exact less
          · exact absurd (String.le_antisymm (String.not_lt.1 more) (String.not_lt.1 notLess))
              notSame
        · exact below e he

def insert (c : Keyed α) (key : String) (value : α) : Keyed α :=
  ⟨insertEntry key value c.entries, orderedInsertEntry c.ordered⟩

def get? (c : Keyed α) (key : String) : Option α := c.entries.lookup key

def contains (c : Keyed α) (key : String) : Bool := (c.get? key).isSome

def erase (c : Keyed α) (key : String) : Keyed α :=
  ⟨c.entries.filter fun e => e.1 != key, c.ordered.filter _⟩

theorem lookupCons {other : String} {e : String × α} {es : List (String × α)} :
    (e :: es).lookup other = if other = e.1 then some e.2 else es.lookup other := by
  by_cases same : other = e.1
  · rw [List.lookup_cons, beq_iff_eq.mpr same, if_pos same]
  · rw [List.lookup_cons, beq_false_of_ne same, if_neg same]

theorem lookupInsert {key other : String} {value : α} (es : List (String × α)) :
    (insertEntry key value es).lookup other =
      if other = key then some value else es.lookup other := by
  induction es with
  | nil => simp only [insertEntry, lookupCons]
  | cons e es ih =>
    rw [insertEntry]
    split
    · simp only [lookupCons]
    · split
      · next replaced =>
        subst replaced
        simp only [lookupCons]
        split <;> rfl
      · next differs =>
        simp only [lookupCons, ih]
        by_cases same : other = key <;> simp [same, differs]

theorem getInsert {c : Keyed α} {key other : String} {value : α} :
    (c.insert key value).get? other = if other = key then some value else c.get? other :=
  lookupInsert c.entries

theorem lookupFilter {key other : String} (differs : other ≠ key) (es : List (String × α)) :
    (es.filter fun e => e.1 != key).lookup other = es.lookup other := by
  induction es with
  | nil => rfl
  | cons e rest ih =>
    by_cases same : e.1 = key
    · rw [List.filter_cons_of_neg (by simp [same]), ih, lookupCons, if_neg (same ▸ differs)]
    · rw [List.filter_cons_of_pos (by simp [same]), lookupCons, lookupCons, ih]

theorem getErase {c : Keyed α} {key other : String} (differs : other ≠ key) :
    (c.erase key).get? other = c.get? other :=
  lookupFilter differs c.entries

def ofList (entries : List (String × α)) : Keyed α :=
  entries.foldl (fun c e => c.insert e.1 e.2) empty

theorem insertEntryPerm {key : String} {value : α} {es : List (String × α)}
    (fresh : key ∉ es.map (·.1)) : (insertEntry key value es).Perm ((key, value) :: es) := by
  induction es with
  | nil => exact .refl _
  | cons e es ih =>
    simp only [List.map_cons, List.mem_cons, not_or] at fresh
    obtain ⟨differs, fresh⟩ := fresh
    rw [insertEntry, if_neg differs]
    split
    · exact .refl _
    · exact ((ih fresh).cons e).trans (.swap _ _ _)

theorem keysApart (c : Keyed α) : (c.entries.map (·.1)).Nodup :=
  List.pairwise_map.mpr (c.ordered.imp fun {a b} less (same : a.1 = b.1) =>
    String.lt_irrefl b.1 (same ▸ less))

/-- The entries of a keyed collection give it back in whatever order they come. -/
theorem ofListPerm {c : Keyed α} {entries : List (String × α)} (same : entries.Perm c.entries) :
    ofList entries = c := by
  have inserted (es : List (String × α)) : ∀ d : Keyed α,
      ((d.entries ++ es).map (·.1)).Nodup →
      (es.foldl (fun c e => c.insert e.1 e.2) d).entries.Perm (d.entries ++ es) := by
    induction es with
    | nil => simp
    | cons e es ih =>
      intro d apart
      have front : (d.insert e.1 e.2).entries.Perm (e :: d.entries) := by
        refine insertEntryPerm fun known => ?_
        rw [List.map_append] at apart
        exact (List.nodup_append.mp apart).2.2 _ known _ (List.mem_map_of_mem List.mem_cons_self) rfl
      have beside := (front.append_right es).trans List.perm_middle.symm
      exact (ih _ ((beside.map _).nodup_iff.mpr apart)).trans beside
  have all : (ofList entries).entries.Perm c.entries :=
    (inserted entries empty ((same.map _).nodup_iff.mpr c.keysApart)).trans same
  have own : (ofList entries).entries = c.entries :=
    all.eq_of_pairwise (fun _ _ _ _ less more => absurd more (String.lt_asymm less))
      (ofList entries).ordered c.ordered
  cases c
  generalize ofList entries = d at own
  cases d
  cases own
  rfl

def keys (c : Keyed α) : List String := c.entries.map (·.1)

def size (c : Keyed α) : Nat := c.entries.length

end Keyed

end MutationPipeline
