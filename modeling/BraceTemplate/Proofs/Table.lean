import Mathlib.Data.List.Induction
import Mathlib.Data.List.Nodup
import BraceTemplate.Table

/- Tables. A value that was put into a table is the one that is found under its key; all other
   keys find what they found before. So a table of entries holds each key in the place of its first entry, with the value
   of its last (`Table.ofEntries_eq_lastValues`). -/
namespace BraceTemplate
namespace Table

variable {α : Type}

theorem lookup_cons (key : String) (e : String × α) (table : List (String × α)) :
    lookup key (e :: table) = if e.1 = key then some e.2 else lookup key table := by
  unfold lookup
  by_cases h : e.1 = key <;> simp [List.find?, h]

theorem mem_of_lookup {key : String} {value : α} {table : List (String × α)}
    (h : lookup key table = some value) : (key, value) ∈ table := by
  induction table with
  | nil => cases h
  | cons e table ih =>
    rw [lookup_cons] at h
    split at h
    · rename_i hkey
      cases h
      rw [← hkey]
      exact List.mem_cons_self
    · exact List.mem_cons_of_mem e (ih h)

theorem lookup_eq_none {key : String} {table : List (String × α)} (h : key ∉ table.map (·.1)) :
    lookup key table = none := by
  cases hfound : lookup key table with
  | none => rfl
  | some value => exact absurd (List.mem_map_of_mem (mem_of_lookup hfound)) h

/-- Under every key of a table something is found. -/
theorem not_mem_of_lookup {key : String} {table : List (String × α)} (h : lookup key table = none) :
    key ∉ table.map (·.1) := by
  induction table with
  | nil => exact List.not_mem_nil
  | cons e table ih =>
    rw [lookup_cons] at h
    split at h
    · cases h
    · rename_i hkey
      rw [List.map_cons, List.mem_cons, not_or]
      exact ⟨Ne.symm hkey, ih h⟩

/-- A value is found under the key that it was put under. -/
theorem lookup_insert (table : List (String × α)) (key key' : String) (value : α) :
    lookup key' (insert table key value) = if key = key' then some value else lookup key' table := by
  induction table with
  | nil => exact lookup_cons key' (key, value) []
  | cons e table ih =>
    rw [insert]
    split
    · rename_i hkey
      rw [lookup_cons, lookup_cons, hkey]
      split <;> rfl
    · rename_i hkey
      rw [lookup_cons, lookup_cons, ih]
      split
      · rename_i he
        rw [if_neg (he ▸ Ne.symm hkey)]
      · rfl

/-- Putting in what is found there already changes nothing. -/
theorem insert_of_lookup {table : List (String × α)} {key : String} {value : α}
    (h : lookup key table = some value) : insert table key value = table := by
  induction table with
  | nil => cases h
  | cons e table ih =>
    rw [lookup_cons] at h
    rw [insert]
    split
    · rename_i hkey
      rw [if_pos hkey] at h
      rw [← Option.some.inj h, ← hkey]
    · rename_i hkey
      rw [if_neg hkey] at h
      rw [ih h]

theorem insert_of_not_mem {table : List (String × α)} {key : String} (value : α)
    (h : key ∉ table.map (·.1)) : insert table key value = table ++ [(key, value)] := by
  induction table with
  | nil => rfl
  | cons e table ih =>
    simp only [List.map_cons, List.mem_cons, not_or] at h
    rw [insert, if_neg (Ne.symm h.1), ih h.2, List.cons_append]

/-- The entries of a table are those that it had and those that were put in. -/
theorem mem_insertAll {table entries : List (String × α)} {e : String × α}
    (h : e ∈ insertAll table entries) : e ∈ table ∨ e ∈ entries := by
  induction entries generalizing table with
  | nil => exact .inl h
  | cons e' entries ih =>
    rcases ih h with h | h
    · exact (mem_insert h).elim (fun heq => .inr (heq ▸ List.mem_cons_self)) .inl
    · exact .inr (List.mem_cons_of_mem _ h)

/-- Putting entries with new keys into a table adds them at its end. -/
theorem insertAll_of_distinct {table entries : List (String × α)} (h : Distinct (table ++ entries)) :
    insertAll table entries = table ++ entries := by
  induction entries generalizing table with
  | nil => exact (List.append_nil table).symm
  | cons e entries ih =>
    have hkey : e.1 ∉ table.map (·.1) := by
      rw [Distinct, List.map_append, List.nodup_append] at h
      intro hmem
      exact h.2.2 _ hmem _ (by simp) rfl
    rw [show insertAll table (e :: entries) = insertAll (Table.insert table e.1 e.2) entries from rfl,
      insert_of_not_mem _ hkey, ih (by simpa using h), List.append_assoc, List.singleton_append]

/-- A table is the table of its own entries. -/
theorem ofEntries_of_distinct {table : List (String × α)} (h : Distinct table) :
    ofEntries table = table :=
  insertAll_of_distinct h

/-- Where a key occurs once, an entry is what is found under its key. -/
theorem lookup_eq_some_iff {table : List (String × α)} (h : Distinct table) {key : String}
    {value : α} : lookup key table = some value ↔ (key, value) ∈ table := by
  refine ⟨mem_of_lookup, fun hmem => ?_⟩
  induction table with
  | nil => cases hmem
  | cons e table ih =>
    obtain ⟨hkey, hrest⟩ : e.1 ∉ table.map (·.1) ∧ Distinct table := List.nodup_cons.mp h
    rw [lookup_cons]
    rcases List.mem_cons.mp hmem with rfl | hmem
    · exact if_pos rfl
    · rw [if_neg fun heq : e.1 = key => hkey (heq ▸ List.mem_map_of_mem hmem)]
      exact ih hrest hmem

/-! The table of entries. -/

theorem lookup_append (key : String) (table table' : List (String × α)) :
    lookup key (table ++ table') = (lookup key table).or (lookup key table') := by
  induction table with
  | nil => rfl
  | cons e table ih =>
    rw [List.cons_append, lookup_cons, lookup_cons, ih]
    split <;> rfl

/-- Of entries that are put into a table, the last one with a key counts. -/
theorem lookup_insertAll (key : String) (table entries : List (String × α)) :
    lookup key (insertAll table entries) = (lookup key entries.reverse).or (lookup key table) := by
  induction entries generalizing table with
  | nil => rfl
  | cons e entries ih =>
    rw [show insertAll table (e :: entries) = insertAll (insert table e.1 e.2) entries from rfl, ih,
      lookup_insert, List.reverse_cons, lookup_append, Option.or_assoc, lookup_cons]
    split <;> rfl

theorem keys_insert (table : List (String × α)) (key : String) (value : α) :
    (insert table key value).map (·.1) =
      if key ∈ table.map (·.1) then table.map (·.1) else table.map (·.1) ++ [key] := by
  induction table with
  | nil => rfl
  | cons e table ih =>
    rw [insert]
    split
    · rename_i hkey
      simp [hkey]
    · rename_i hkey
      rw [List.map_cons, ih, List.map_cons]
      split <;> simp_all [Ne.symm hkey]

/-- The keys of entries come in the order in which they are first written. -/
theorem keys_ofEntries (entries : List (String × α)) :
    (ofEntries entries).map (·.1) = (entries.map (·.1)).eraseDups := by
  induction entries using List.reverseRec with
  | nil => rfl
  | append_singleton entries e ih =>
    have hsplit : ofEntries (entries ++ [e]) = insert (ofEntries entries) e.1 e.2 := by
      simp [ofEntries, insertAll, List.foldl_append]
    rw [hsplit, keys_insert, ih, List.map_append, List.eraseDups_append]
    by_cases h : e.1 ∈ entries.map (·.1) <;> simp_all [List.removeAll, List.mem_eraseDups, List.eraseDups_cons]

/-- A table is told by its keys and what is found under them. -/
theorem entries_of_lookup {table : List (String × α)} (h : Distinct table) :
    (table.map (·.1)).filterMap (fun key => (lookup key table).map (key, ·)) = table := by
  induction table with
  | nil => rfl
  | cons e table ih =>
    obtain ⟨hkey, hrest⟩ : e.1 ∉ table.map (·.1) ∧ Distinct table := List.nodup_cons.mp h
    have hlookup : ∀ key ∈ table.map (·.1), lookup key (e :: table) = lookup key table := by
      intro key hmem
      rw [lookup_cons, if_neg fun heq : e.1 = key => hkey (by rwa [heq])]
    rw [List.map_cons, List.filterMap_cons, lookup_cons, if_pos rfl]
    simp only [Option.map_some]
    rw [List.filterMap_congr fun key hmem => congrArg _ (hlookup key hmem), ih hrest]

theorem lookup_ofEntries (key : String) (entries : List (String × α)) :
    lookup key (ofEntries entries) = lookup key entries.reverse := by
  rw [ofEntries, lookup_insertAll]
  exact Option.or_none

theorem insertAll_append (table entries entries' : List (String × α)) :
    insertAll table (entries ++ entries') = insertAll (insertAll table entries) entries' :=
  List.foldl_append

/-- Each key in the place of its first entry, with the value of its last. -/
def lastValues (entries : List (String × α)) : List (String × α) :=
  (entries.map (·.1)).eraseDups.filterMap fun key => (lookup key entries.reverse).map (key, ·)

theorem ofEntries_eq_lastValues (entries : List (String × α)) :
    ofEntries entries = lastValues entries := by
  rw [lastValues, ← keys_ofEntries]
  simp only [← lookup_ofEntries]
  exact (entries_of_lookup (distinct_ofEntries entries)).symm

/-- The value is that of the last entry with the key. -/
def Last (entries : List (String × α)) (key : String) (value : α) : Prop :=
  ∃ before after, entries = before ++ (key, value) :: after ∧ key ∉ after.map (·.1)

theorem lookup_eq_none_iff {key : String} {table : List (String × α)} :
    lookup key table = none ↔ key ∉ table.map (·.1) :=
  ⟨not_mem_of_lookup, lookup_eq_none⟩

theorem last_cons {e : String × α} {key : String} {value : α} {entries : List (String × α)} :
    Last (e :: entries) key value ↔
      Last entries key value ∨ key ∉ entries.map (·.1) ∧ e = (key, value) := by
  constructor
  · rintro ⟨before, after, heq, hafter⟩
    cases before with
    | nil =>
      obtain ⟨rfl, rfl⟩ := List.cons.inj heq
      exact .inr ⟨hafter, rfl⟩
    | cons e' before =>
      obtain ⟨rfl, rfl⟩ := List.cons.inj heq
      exact .inl ⟨before, after, rfl, hafter⟩
  · rintro (⟨before, after, rfl, hafter⟩ | ⟨hkey, rfl⟩)
    · exact ⟨e :: before, after, rfl, hafter⟩
    · exact ⟨[], entries, rfl, hkey⟩

/-- From behind, the last entry with a key is the first that is found. -/
theorem lookup_reverse_eq_some {key : String} {value : α} {entries : List (String × α)} :
    lookup key entries.reverse = some value ↔ Last entries key value := by
  induction entries with
  | nil => simp [lookup, Last]
  | cons e entries ih =>
    have hsingle : lookup key [e] = some value ↔ e = (key, value) := by
      obtain ⟨k, v⟩ := e
      by_cases hkey : k = key <;> simp [lookup, hkey]
    rw [last_cons, ← ih, List.reverse_cons, lookup_append, Option.or_eq_some_iff, hsingle,
      lookup_eq_none_iff, List.map_reverse, List.mem_reverse]

/-! Order. -/

/-- A value that is put in takes the place of the old one, or comes last. -/
theorem pairwise_insert {R R' : String × α → String × α → Prop} {table : List (String × α)} {key : String}
    {value : α} (h : table.Pairwise R) (hkept : ∀ e f, R e f → R' e f)
    (hbefore : ∀ e ∈ table, R' e (key, value)) (hbehind : ∀ old f, R (key, old) f → R' (key, value) f) :
    (insert table key value).Pairwise R' := by
  induction table with
  | nil => exact List.pairwise_singleton _ _
  | cons e table ih =>
    obtain ⟨he, htable⟩ := List.pairwise_cons.mp h
    obtain ⟨hlast, hrest⟩ := List.forall_mem_cons.mp hbefore
    obtain ⟨key', old⟩ := e
    rw [insert]
    split
    · rename_i hkey
      subst hkey
      exact List.pairwise_cons.mpr ⟨fun f hf => hbehind old f (he f hf), htable.imp (hkept _ _)⟩
    · refine List.pairwise_cons.mpr ⟨fun f hf => ?_, ih htable hrest⟩
      rcases mem_insert hf with rfl | hf
      · exact hlast
      · exact hkept _ _ (he f hf)

/-- The entries stand in this order, or the first of them has the key of one before both. -/
def InOrder (entries : List (String × α)) (e f : String × α) : Prop :=
  [e, f].Sublist entries ∨ ∃ old, [(e.1, old), f, e].Sublist entries

theorem mem_of_mem_lastValues {entries : List (String × α)} {e : String × α}
    (h : e ∈ lastValues entries) : e ∈ entries := by
  rw [← ofEntries_eq_lastValues] at h
  exact (mem_insertAll h).resolve_left List.not_mem_nil

/-- The last values stand in the order of the entries, but for keys that occur again. -/
theorem pairwise_lastValues (entries : List (String × α)) :
    (lastValues entries).Pairwise (InOrder entries) := by
  induction entries using List.reverseRecOn with
  | nil => exact List.Pairwise.nil
  | append_singleton entries e ih =>
    have hstep : lastValues (entries ++ [e]) = insert (lastValues entries) e.1 e.2 := by
      rw [← ofEntries_eq_lastValues, ofEntries, insertAll_append, ← ofEntries, ofEntries_eq_lastValues]
      rfl
    rw [hstep]
    refine pairwise_insert ih (fun a b hab => ?_) (fun a ha => ?_) fun old b hab => ?_
    · exact hab.imp (·.trans (List.sublist_append_left _ _)) fun ⟨old, h⟩ =>
        ⟨old, h.trans (List.sublist_append_left _ _)⟩
    · have hmem := List.singleton_sublist.mpr (mem_of_mem_lastValues ha)
      exact .inl (hmem.append (List.Sublist.refl [e]))
    · -- the key stood before `b`, and comes again at the end
      have hfront : ∃ old, [(e.1, old), b].Sublist entries := by
        rcases hab with h | ⟨old', h⟩
        · exact ⟨old, h⟩
        · exact ⟨old', (List.sublist_append_left [(e.1, old'), b] _).trans h⟩
      obtain ⟨old, hfront⟩ := hfront
      exact .inr ⟨old, hfront.append (List.Sublist.refl [e])⟩

end Table
end BraceTemplate
