import Mathlib.Algebra.Ring.Nat
import Mathlib.Data.List.AList
import Mathlib.Data.List.Sort
import SmtpSink.JsonValueProofs

/-! # JSON objects — members by name, and codecs

    A reader of an object looks its members up by name and refuses one that is
    there twice (`field`), so it does not see the order of the members
    (`field_perm`).

    A `Codec` writes values and reads them back; its values may keep the members
    of an object in an order of their own.  What a reader relies on is `Lawful`:
    values within the limits of a reader (`Writable`) are read back, and a member
    of a rearranged object is the rearranged member (`field_arranged`).  The texts
    of this library are a lawful codec (`lawful_compact`).

    `asMap_members` — a map is read back from an object that has its entries in
    any order. -/

namespace JsonText

/-- The member with a name, if there is one; `none` where there are several. -/
def field (name : List Char) (m : List (List Char × Value)) : Option (Option Value) :=
  match m.filter (·.1 == name) with
  | [] => some none
  | [p] => some (some p.2)
  | _ => none

/-- The members of an object some of whose fields may be left out. -/
def present (fields : List (List Char × Option Value)) : List (List Char × Value) :=
  fields.filterMap (fun p => p.2.map (fun v => (p.1, v)))

/-- A reader finds the fields, and misses those that were left out. -/
def Finds (m : List (List Char × Value)) (fields : List (List Char × Option Value)) : Prop :=
  ∀ p ∈ fields, field p.1 m = some p.2

/-- Each element of a list is read. -/
def readAll {α : Type} (read : Value → Option α) : List Value → Option (List α)
  | [] => some []
  | v :: l =>
      match read v, readAll read l with
      | some a, some more => some (a :: more)
      | _, _ => none

def asText : Value → Option (List Char)
  | .string s => some s
  | .null | .bool _ | .number _ | .array _ | .object _ => none

def asArray {α : Type} (read : Value → Option α) : Value → Option (List α)
  | .array l => readAll read l
  | .null | .bool _ | .number _ | .string _ | .object _ => none

/-- The members of an object as the entries of a map; of two with one name the
    later stays. -/
def insertAll : List (List Char × Value) → AList (fun _ : List Char => List Char) →
    Option (AList (fun _ : List Char => List Char))
  | [], acc => some acc
  | (name, v) :: m, acc =>
      match asText v with
      | some t => insertAll m (acc.insert name t)
      | none => none

def asMap : Value → Option (AList (fun _ : List Char => List Char))
  | .object m => insertAll m ∅
  | .null | .bool _ | .number _ | .string _ | .array _ => none

/-- The entries of a map as members. -/
def members (entries : List (List Char × List Char)) : List (List Char × Value) :=
  entries.map (fun e => (e.1, .string e.2))

/-- The entries of a map, in the order it has them. -/
def entriesOf (m : AList (fun _ : List Char => List Char)) : List (List Char × List Char) :=
  m.entries.map (fun e => (e.1, e.2))

section

variable {α β : Type} {name : List Char} {m m' : List (List Char × Value)}

/-- **A reader does not see the order of the members.** -/
theorem field_perm (h : m.Perm m') : field name m = field name m' := by
  have hfilter := h.filter (·.1 == name)
  rw [field, field]
  generalize m.filter (·.1 == name) = l at hfilter
  generalize m'.filter (·.1 == name) = l' at hfilter
  cases l with
  | nil => rw [hfilter.symm.eq_nil]
  | cons p l =>
      cases l with
      | nil =>
          obtain rfl := List.perm_singleton.mp hfilter.symm
          rfl
      | cons q l =>
          -- there are several in the other order too
          have hlen := hfilter.length_eq
          cases l' with
          | nil => exact absurd hlen (by simp)
          | cons p' l' =>
              cases l' with
              | nil => exact absurd hlen (by simp)
              | cons q' l' => rfl

theorem filter_present_of_not_mem {fields : List (List Char × Option Value)}
    (h : name ∉ fields.map Prod.fst) : (present fields).filter (·.1 == name) = [] := by
  refine List.filter_eq_nil_iff.mpr (fun q hq heq => h ?_)
  obtain ⟨p, hp, hpq⟩ := List.mem_filterMap.mp hq
  obtain ⟨v, -, rfl⟩ := Option.map_eq_some_iff.mp hpq
  rw [← beq_iff_eq.mp heq]
  exact List.mem_map_of_mem hp

/-- **A field is found by its name**, or missed where it was left out. -/
theorem field_present {fields : List (List Char × Option Value)} {o : Option Value}
    (hnodup : (fields.map Prod.fst).Nodup) (h : (name, o) ∈ fields) :
    field name (present fields) = some o := by
  obtain ⟨before, behind, rfl⟩ := List.append_of_mem h
  rw [List.map_append, List.map_cons, List.nodup_append, List.nodup_cons] at hnodup
  have hbefore : name ∉ before.map Prod.fst :=
    fun hmem => hnodup.2.2 name hmem name List.mem_cons_self rfl
  have hsplit : present (before ++ (name, o) :: behind)
      = present before ++ (present [(name, o)] ++ present behind) := by
    rw [present, List.filterMap_append, ← List.singleton_append, List.filterMap_append]
    rfl
  have hfilter : (present (before ++ (name, o) :: behind)).filter (·.1 == name)
      = (present [(name, o)]).filter (·.1 == name) := by
    rw [hsplit, List.filter_append, List.filter_append, filter_present_of_not_mem hbefore,
      filter_present_of_not_mem hnodup.2.1.1, List.nil_append, List.append_nil]
  rw [field, hfilter]
  cases o with
  | none => rfl
  | some v =>
      have hself : (present [(name, some v)]).filter (·.1 == name) = [(name, v)] :=
        List.filter_cons_of_pos (by simp)
      rw [hself]

theorem finds_of_perm {fields : List (List Char × Option Value)}
    (hnodup : (fields.map Prod.fst).Nodup) (h : m.Perm (present fields)) : Finds m fields := by
  intro p hp
  rw [field_perm h, field_present hnodup hp]

/-- What was written element by element is read back so. -/
theorem readAll_map {read : Value → Option α} {write : β → Value} {f : β → α} {l : List β}
    (h : ∀ b ∈ l, read (write b) = some (f b)) : readAll read (l.map write) = some (l.map f) := by
  induction l with
  | nil => rfl
  | cons b l ih =>
      rw [List.map_cons, readAll, h b List.mem_cons_self,
        ih (fun c hc => h c (List.mem_cons_of_mem _ hc))]
      rfl

theorem asArray_strings (l : List (List Char)) :
    asArray asText (.array (l.map .string)) = some l := by
  have hread : readAll asText (l.map .string) = some (l.map id) := readAll_map (fun _ _ => rfl)
  rw [List.map_id] at hread
  exact hread

/-! ## Maps -/

theorem insertAll_members (entries : List (List Char × List Char))
    (acc : AList (fun _ : List Char => List Char)) :
    insertAll (members entries) acc
      = some (entries.foldl (fun map e => map.insert e.1 e.2) acc) := by
  induction entries generalizing acc with
  | nil => rfl
  | cons e entries ih => exact ih (acc.insert e.1 e.2)

/-- A name that no entry has is looked up in what was there before. -/
theorem lookup_foldl_of_not_mem {entries : List (List Char × List Char)}
    {acc : AList (fun _ : List Char => List Char)} (h : name ∉ entries.map Prod.fst) :
    (entries.foldl (fun map e => map.insert e.1 e.2) acc).lookup name = acc.lookup name := by
  induction entries generalizing acc with
  | nil => rfl
  | cons e entries ih =>
      rw [List.map_cons, List.mem_cons, not_or] at h
      rw [List.foldl_cons, ih h.2, AList.lookup_insert_ne h.1]

/-- An entry is found, where names are distinct. -/
theorem lookup_foldl_of_mem {entries : List (List Char × List Char)} {value : List Char}
    {acc : AList (fun _ : List Char => List Char)} (hnodup : (entries.map Prod.fst).Nodup)
    (h : (name, value) ∈ entries) :
    (entries.foldl (fun map e => map.insert e.1 e.2) acc).lookup name = some value := by
  induction entries generalizing acc with
  | nil => exact absurd h List.not_mem_nil
  | cons e entries ih =>
      rw [List.map_cons, List.nodup_cons] at hnodup
      rw [List.foldl_cons]
      rcases List.mem_cons.mp h with rfl | h
      · rw [lookup_foldl_of_not_mem hnodup.1, AList.lookup_insert]
      · exact ih hnodup.2 h

theorem mem_entriesOf {map : AList (fun _ : List Char => List Char)} {value : List Char} :
    (name, value) ∈ entriesOf map ↔ map.lookup name = some value := by
  rw [entriesOf, List.mem_map, ← Option.mem_def, AList.mem_lookup_iff]
  constructor
  · rintro ⟨e, he, heq⟩
    obtain ⟨rfl, rfl⟩ := Prod.mk.inj heq
    exact he
  · exact fun h => ⟨_, h, rfl⟩

theorem nodup_entriesOf (map : AList (fun _ : List Char => List Char)) :
    ((entriesOf map).map Prod.fst).Nodup := by
  rw [entriesOf, List.map_map]
  exact map.nodupKeys

/-- **A map is read back** from an object with its entries in any order. -/
theorem asMap_members {map : AList (fun _ : List Char => List Char)}
    {entries : List (List Char × List Char)} (h : entries.Perm (entriesOf map)) :
    ∃ read, asMap (.object (members entries)) = some read
      ∧ ∀ name, read.lookup name = map.lookup name := by
  have hnodup : (entries.map Prod.fst).Nodup := ((h.map _).nodup_iff).mpr (nodup_entriesOf map)
  refine ⟨_, insertAll_members entries ∅, fun name => ?_⟩
  cases hname : map.lookup name with
  | some value => exact lookup_foldl_of_mem hnodup (h.mem_iff.mpr (mem_entriesOf.mpr hname))
  | none =>
      refine (lookup_foldl_of_not_mem (fun hmem => ?_)).trans (AList.lookup_empty name)
      obtain ⟨⟨k, value⟩, he, rfl⟩ := List.mem_map.mp hmem
      rw [mem_entriesOf.mp (h.mem_iff.mp he)] at hname
      cases hname

end

/-! ## Codecs -/

/-- A value within the limits of a reader: nested at most `d` deep, with distinct
    names in each object and natural numbers of 64 bits. -/
inductive Writable : Nat → Value → Prop where
  | null (d : Nat) : Writable d .null
  | bool (d : Nat) (b : Bool) : Writable d (.bool b)
  | number (d n : Nat) : n < 2 ^ 64 → Writable d (.number (Numeral.ofNat n))
  | string (d : Nat) (s : List Char) : Writable d (.string s)
  | array (d : Nat) (l : List Value) : (∀ v ∈ l, Writable d v) → Writable (d + 1) (.array l)
  | object (d : Nat) (m : List (List Char × Value)) : (m.map Prod.fst).Nodup →
      (∀ p ∈ m, Writable d p.2) → Writable (d + 1) (.object m)

/-- Values are kept as they are, but for the order of the members of an object. -/
structure Arranges (f : Value → Value) : Prop where
  null : f .null = .null
  bool : ∀ b, f (.bool b) = .bool b
  number : ∀ x, f (.number x) = .number x
  string : ∀ s, f (.string s) = .string s
  array : ∀ l, f (.array l) = .array (l.map f)
  object : ∀ m, (m.map Prod.fst).Nodup →
    ∃ m', f (.object m) = .object m' ∧ m'.Perm (m.map (fun p => (p.1, f p.2)))

/-- Values written as texts and read back. -/
structure Codec where
  print : Value → List Char
  parse : List Char → Option Value
  /-- the order in which a value that is built keeps its members -/
  arrange : Value → Value

/-- A value nested at most 127 deep is read back. -/
structure Codec.Lawful (c : Codec) : Prop where
  parse_print : ∀ {d v}, Writable d v → d ≤ 127 → c.parse (c.print v) = some v
  arranges : Arranges c.arrange

section

variable {d : Nat} {v : Value} {f : Value → Value} {m m' : List (List Char × Value)}
  {fields : List (List Char × Option Value)} {entries : List (List Char × List Char)}

theorem Writable.mono {d' : Nat} (h : Writable d v) (hd : d ≤ d') : Writable d' v := by
  induction h generalizing d' with
  | null => exact Writable.null d'
  | bool d b => exact Writable.bool d' b
  | number d n hn => exact Writable.number d' n hn
  | string d s => exact Writable.string d' s
  | array d l _ ih =>
      obtain ⟨d', rfl⟩ := Nat.exists_eq_add_of_le' (Nat.le_of_add_left_le hd)
      exact Writable.array d' l (fun v hv => ih v hv (Nat.le_of_succ_le_succ hd))
  | object d m hm _ ih =>
      obtain ⟨d', rfl⟩ := Nat.exists_eq_add_of_le' (Nat.le_of_add_left_le hd)
      exact Writable.object d' m hm (fun p hp => ih p hp (Nat.le_of_succ_le_succ hd))

/-- Strings need no nesting. -/
theorem writable_strings (l : List (List Char)) : Writable 1 (.array (l.map .string)) := by
  refine Writable.array 0 _ (fun v hv => ?_)
  obtain ⟨s, -, rfl⟩ := List.mem_map.mp hv
  exact Writable.string 0 s

theorem writable_members (h : (entries.map Prod.fst).Nodup) :
    Writable 1 (.object (members entries)) := by
  refine Writable.object 0 _ ?_ (fun p hp => ?_)
  · rw [members, List.map_map]
    exact h
  · obtain ⟨e, -, rfl⟩ := List.mem_map.mp hp
    exact Writable.string 0 e.2

theorem nodup_present (h : (fields.map Prod.fst).Nodup) :
    ((present fields).map Prod.fst).Nodup := by
  refine h.sublist ?_
  induction fields with
  | nil => exact List.Sublist.slnil
  | cons p fields ih =>
      have hrest := ih (List.nodup_cons.mp h).2
      obtain ⟨name, _ | v⟩ := p
      · exact hrest.cons _
      · exact hrest.cons_cons _

theorem writable_present (hnodup : (fields.map Prod.fst).Nodup)
    (h : ∀ p ∈ fields, ∀ v ∈ p.2, Writable d v) : Writable (d + 1) (.object (present fields)) := by
  refine Writable.object d _ (nodup_present hnodup) (fun q hq => ?_)
  obtain ⟨p, hp, hpq⟩ := List.mem_filterMap.mp hq
  obtain ⟨v, hv, rfl⟩ := Option.map_eq_some_iff.mp hpq
  exact h p hp v hv

/-- What is rearranged is within the same limits. -/
theorem Arranges.writable (hf : Arranges f) (h : Writable d v) : Writable d (f v) := by
  induction h with
  | null d =>
      rw [hf.null]
      exact Writable.null d
  | bool d b =>
      rw [hf.bool]
      exact Writable.bool d b
  | number d n hn =>
      rw [hf.number]
      exact Writable.number d n hn
  | string d s =>
      rw [hf.string]
      exact Writable.string d s
  | array d l _ ih =>
      rw [hf.array]
      refine Writable.array d _ (fun v hv => ?_)
      obtain ⟨w, hw, rfl⟩ := List.mem_map.mp hv
      exact ih w hw
  | object d m hm _ ih =>
      obtain ⟨m', hm', hperm⟩ := hf.object m hm
      rw [hm']
      refine Writable.object d m' ?_ (fun q hq => ?_)
      · rw [(hperm.map Prod.fst).nodup_iff, List.map_map]
        exact hm
      · obtain ⟨p, hp, rfl⟩ := List.mem_map.mp (hperm.mem_iff.mp hq)
        exact ih p hp

theorem field_map (f : Value → Value) (name : List Char) (m : List (List Char × Value)) :
    field name (m.map (fun p => (p.1, f p.2))) = (field name m).map (Option.map f) := by
  have hfilter : (m.map (fun p => (p.1, f p.2))).filter (·.1 == name)
      = (m.filter (·.1 == name)).map (fun p => (p.1, f p.2)) := List.filter_map
  rw [field, field, hfilter]
  generalize m.filter (·.1 == name) = l
  cases l with
  | nil => rfl
  | cons p l => cases l <;> rfl

/-- **A member of a rearranged object** is the rearranged member. -/
theorem field_arranged (h : m'.Perm (m.map (fun p => (p.1, f p.2)))) (name : List Char) :
    field name m' = (field name m).map (Option.map f) := by
  rw [field_perm h, field_map]

/-- A reader finds the rearranged fields in a rearranged object. -/
theorem Finds.arranged (h : Finds m fields) (hperm : m'.Perm (m.map (fun p => (p.1, f p.2)))) :
    Finds m' (fields.map (fun p => (p.1, p.2.map f))) := by
  intro q hq
  obtain ⟨p, hp, rfl⟩ := List.mem_map.mp hq
  rw [field_arranged hperm, h p hp]
  rfl

/-- A rearranged map is the map with its entries in some order. -/
theorem Arranges.members (hf : Arranges f) (h : (entries.map Prod.fst).Nodup) :
    ∃ entries', f (.object (members entries)) = .object (JsonText.members entries')
      ∧ entries'.Perm entries := by
  obtain ⟨m', hm', hperm⟩ := hf.object (JsonText.members entries) (by
    rw [JsonText.members, List.map_map]
    exact h)
  have hsame : (JsonText.members entries).map (fun p => (p.1, f p.2))
      = JsonText.members entries := by
    rw [JsonText.members, List.map_map]
    exact List.map_congr_left (fun e _ => by rw [Function.comp_apply, hf.string])
  rw [hsame] at hperm
  have hback : ∀ l, (JsonText.members l).map (fun p => (p.1, (asText p.2).getD [])) = l := by
    intro l
    rw [JsonText.members, List.map_map]
    exact List.map_id l
  refine ⟨m'.map (fun p => (p.1, (asText p.2).getD [])), ?_, ?_⟩
  · rw [hm', JsonText.members, List.map_map]
    congr 1
    refine (List.map_id m').symm.trans (List.map_congr_left (fun p hp => ?_))
    obtain ⟨e, -, rfl⟩ := List.mem_map.mp (hperm.mem_iff.mp hp)
    rfl
  · have hmap := hperm.map (fun p => (p.1, (asText p.2).getD []))
    rwa [hback] at hmap

end

/-! ## Sorted members -/

mutual

/-- A value with the members of its objects sorted by name. -/
def canonical (le : List Char → List Char → Bool) : Value → Value
  | .null => .null
  | .bool b => .bool b
  | .number x => .number x
  | .string s => .string s
  | .array l => .array (canonicalValues le l)
  | .object m => .object ((canonicalMembers le m).insertionSort (fun p q => le p.1 q.1))

def canonicalValues (le : List Char → List Char → Bool) : List Value → List Value
  | [] => []
  | v :: l => canonical le v :: canonicalValues le l

def canonicalMembers (le : List Char → List Char → Bool) :
    List (List Char × Value) → List (List Char × Value)
  | [] => []
  | (name, v) :: m => (name, canonical le v) :: canonicalMembers le m

end

section

variable (le : List Char → List Char → Bool)

theorem canonicalValues_eq (l : List Value) : canonicalValues le l = l.map (canonical le) := by
  induction l with
  | nil => rfl
  | cons v l ih => rw [canonicalValues, ih]; rfl

theorem canonicalMembers_eq (m : List (List Char × Value)) :
    canonicalMembers le m = m.map (fun p => (p.1, canonical le p.2)) := by
  induction m with
  | nil => rfl
  | cons p m ih => rw [canonicalMembers, ih]; rfl

theorem arranges_canonical : Arranges (canonical le) where
  null := rfl
  bool _ := rfl
  number _ := rfl
  string _ := rfl
  array l := by rw [canonical, canonicalValues_eq]
  object m _ := by
    refine ⟨_, rfl, ?_⟩
    rw [canonicalMembers_eq]
    exact List.perm_insertionSort _ _

/-- The compact texts, with sorted members. -/
def compact : Codec := ⟨print, parse, canonical le⟩

theorem lawful_compact : (compact le).Lawful := ⟨fun _ _ => parse_print _, arranges_canonical le⟩

end

end JsonText
