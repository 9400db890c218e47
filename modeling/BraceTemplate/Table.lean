/- Tables: lists of entries in which a key occurs once (`Table.Distinct`). A value put under a
   known key takes its place, a new key comes last, so a table keeps the order in which its keys
   were first written. -/
namespace BraceTemplate
namespace Table

/-- The value of a key. -/
def lookup (key : String) (table : List (String × α)) : Option α :=
  (table.find? (·.1 = key)).map (·.2)

/-- Replaces the value of a key in its place, or adds the key at the end. -/
def insert (table : List (String × α)) (key : String) (value : α) : List (String × α) :=
  match table with
  | [] => [(key, value)]
  | (k, v) :: rest => if k = key then (key, value) :: rest else (k, v) :: insert rest key value

/-- Adds entries one after the other. -/
def insertAll (table entries : List (String × α)) : List (String × α) :=
  entries.foldl (fun acc e => insert acc e.1 e.2) table

/-- The table of entries: of each key the place of the first and the value of the last. -/
def ofEntries (entries : List (String × α)) : List (String × α) := insertAll [] entries

/-- A key occurs once. -/
def Distinct (table : List (String × α)) : Prop := (table.map (·.1)).Nodup

instance (table : List (String × α)) : Decidable (Distinct table) :=
  inferInstanceAs (Decidable (table.map (·.1)).Nodup)

theorem distinct_nil : Distinct ([] : List (String × α)) := List.nodup_nil

theorem mem_insert {table : List (String × α)} {key : String} {value : α} {e : String × α}
    (h : e ∈ insert table key value) : e = (key, value) ∨ e ∈ table := by
  induction table with
  | nil => exact .inl (List.mem_singleton.mp h)
  | cons e' table ih =>
    rw [insert] at h
    split at h
    · exact (List.mem_cons.mp h).imp_right (List.mem_cons_of_mem _)
    · rcases List.mem_cons.mp h with h | h
      · exact .inr (h ▸ List.mem_cons_self)
      · exact (ih h).imp_right (List.mem_cons_of_mem _)

theorem mem_keys_insert {table : List (String × α)} {key key' : String} {value : α}
    (h : key' ∈ (insert table key value).map (·.1)) : key' = key ∨ key' ∈ table.map (·.1) := by
  obtain ⟨e, he, rfl⟩ := List.mem_map.mp h
  rcases mem_insert he with rfl | he
  · exact .inl rfl
  · exact .inr (List.mem_map_of_mem he)

theorem Distinct.insert {table : List (String × α)} (h : Distinct table) (key : String) (value : α) :
    Distinct (insert table key value) := by
  induction table with
  | nil => exact List.nodup_cons.mpr ⟨List.not_mem_nil, List.nodup_nil⟩
  | cons e table ih =>
    rw [Distinct, List.map_cons, List.nodup_cons] at h
    rw [Table.insert]
    split
    · rename_i hkey
      exact List.nodup_cons.mpr ⟨hkey ▸ h.1, h.2⟩
    · rename_i hkey
      refine List.nodup_cons.mpr ⟨fun hmem => ?_, ih h.2⟩
      rcases mem_keys_insert hmem with heq | hmem
      · exact hkey heq
      · exact h.1 hmem

theorem Distinct.insertAll {table : List (String × α)} (h : Distinct table)
    (entries : List (String × α)) : Distinct (insertAll table entries) := by
  induction entries generalizing table with
  | nil => exact h
  | cons e entries ih => exact ih (h.insert e.1 e.2)

theorem distinct_ofEntries (entries : List (String × α)) : Distinct (ofEntries entries) :=
  distinct_nil.insertAll entries

end Table
end BraceTemplate
