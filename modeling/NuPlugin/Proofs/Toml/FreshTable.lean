import NuPlugin.Proofs.Toml.Binding

/-!
# Tables under a new name

Statements put marks on nothing but names that lead into the document. A name at the top that the
document does not know is therefore free for a header of its own.
-/

namespace NuPlugin.Toml

/-! ## Names that lead into a table -/

namespace Table

variable {t t' : Table} {names path : List String} {name : String} {v : Value}
  {change : Table → Except Cause Table}

def Knows (t : Table) (names : List String) : Prop :=
  ∃ first rest, names = first :: rest ∧ t.find? first ≠ none

theorem Knows.of_isPrefix {part : List String} (h : t.Knows names) (hne : part ≠ [])
    (hp : part <+: names) : t.Knows part := by
  obtain ⟨first, rest, rfl, hfind⟩ := h
  obtain ⟨other, part, rfl⟩ := List.exists_cons_of_ne_nil hne
  obtain ⟨rfl, -⟩ := List.cons_prefix_cons.1 hp
  exact ⟨other, part, rfl, hfind⟩

theorem knows_put (name : String) (v : Value) (t : Table) (path : List String) :
    (t.put name v).Knows (name :: path) :=
  ⟨name, path, rfl, by simp [find?_put_self]⟩

theorem Knows.put (h : t.Knows names) (name : String) (v : Value) :
    (t.put name v).Knows names := by
  obtain ⟨first, rest, rfl, hfind⟩ := h
  by_cases hne : first = name
  · exact hne ▸ knows_put first v t rest
  · exact ⟨first, rest, rfl, by rwa [find?_put_of_ne hne]⟩

/-- A change of tables that puts a value under a name, and does nothing else. -/
def Puts (change : Table → Except Cause Table) (name : String) : Prop :=
  ∀ {t t'}, change t = .ok t' → ∃ v, t' = t.put name v

theorem puts_add (name : String) (v : Value) (taken : Cause) : Puts (add name v taken) name :=
  fun h => ⟨v, (add_eq_ok h).2⟩

theorem puts_extend (name : String) : Puts (extend name) name := fun h =>
  (extend_eq_ok h).imp' Value.array fun _ he => he

theorem puts_update_cons (first : String) (path : List String) :
    Puts (update change (first :: path)) first := fun h => by
  obtain ⟨inner, close, inner', -, -, rfl⟩ := update_cons_eq_ok h
  exact ⟨_, rfl⟩

theorem puts_update (hchange : Puts change name) (path : List String) :
    ∃ first rest, path ++ [name] = first :: rest ∧ Puts (update change path) first := by
  cases path with
  | nil => exact ⟨name, [], rfl, hchange⟩
  | cons first path => exact ⟨first, path ++ [name], rfl, puts_update_cons first path⟩

end Table

/-! ## Where marks are -/

namespace Marks

variable {m : Marks} {P Q : List String → Prop} {names : List String}

def On (m : Marks) (P : List String → Prop) : Prop :=
  ∀ names, names ∈ m.declared ∨ names ∈ m.pending ∨ names ∈ m.frozen → P names

namespace On

theorem mono (h : m.On P) (hPQ : ∀ names, P names → Q names) : m.On Q :=
  fun names hnames => hPQ names (h names hnames)

theorem declare (h : m.On P) (hnames : P names) : (m.declare names).On P := by
  rintro other (hother | hother)
  · rcases List.mem_cons.1 hother with rfl | hother
    · exact hnames
    · exact h other (.inl hother)
  · exact h other (.inr hother)

theorem freeze (h : m.On P) (hnames : P names) : (m.freeze names).On P := by
  rintro other (hother | hother | hother)
  · exact h other (.inl hother)
  · exact h other (.inr (.inl hother))
  · rcases List.mem_cons.1 hother with rfl | hother
    · exact hnames
    · exact h other (.inr (.inr hother))

theorem await {others : List (List String)} (h : m.On P) (hothers : ∀ names ∈ others, P names) :
    (m.await others).On P := by
  rintro other (hother | hother | hother)
  · exact h other (.inl hother)
  · rcases List.mem_append.1 hother with hother | hother
    · exact hothers other hother
    · exact h other (.inr (.inl hother))
  · exact h other (.inr (.inr hother))

theorem settle (h : m.On P) : m.settle.On P := by
  rintro other (hother | hother | hother)
  · rcases List.mem_append.1 hother with hother | hother
    · exact h other (.inr (.inl hother))
    · exact h other (.inl hother)
  · cases hother
  · exact h other (.inr (.inr hother))

theorem forget (h : m.On P) (gone : List String) : (m.forget gone).On P := by
  rintro other (hother | hother | hother)
  · exact h other (.inl (List.mem_filter.1 hother).1)
  · exact h other (.inr (.inl hother))
  · exact h other (.inr (.inr (List.mem_filter.1 hother).1))

end On

end Marks

/-! ## Statements -/

namespace Draft

variable {d d' : Draft} {k : Key} {v : Value} {name : String}

/-- All marks are on names that lead into the document. -/
def MarksKnown (d : Draft) : Prop := d.marks.On d.root.Knows

theorem marksKnown_empty : empty.MarksKnown := by
  rintro names (h | h | h) <;> cases h

theorem marksKnown_put {m : Marks} {t : Table} (h : m.On t.Knows) (name : String) (v : Value) :
    m.On (t.put name v).Knows :=
  h.mono fun _ hknown => hknown.put name v

theorem passed_isPrefix {names : List String} (h : names ∈ d.passed k) :
    names ≠ [] ∧ names <+: d.header ++ k.names := by
  obtain ⟨i, hi, rfl⟩ := List.mem_map.1 h
  have hlength := List.mem_range.1 hi
  constructor
  · intro hnil
    have htaken := congrArg List.length (List.append_eq_nil_iff.1 hnil).2
    simp only [List.length_take, List.length_nil] at htaken
    omega
  · refine (List.prefix_append_right_inj _).2 ?_
    exact (List.take_prefix _ _).trans (List.prefix_append _ _)

theorem marksKnown_assign (hd : d.MarksKnown) (h : d.assign k v = .ok d') : d'.MarksKnown := by
  obtain ⟨hroot, -, hmarks⟩ := assign_eq_ok h
  obtain ⟨first, rest, hnames, hputs⟩ :=
    Table.puts_update (Table.puts_add k.name v .overwritten) (d.header ++ k.path)
  obtain ⟨w, hw⟩ := hputs hroot
  have hkept : d.marks.On d'.root.Knows := hw ▸ marksKnown_put hd first w
  have hkey : d'.root.Knows (d.header ++ k.names) := by
    rw [Key.names, ← List.append_assoc, hnames, hw]
    exact Table.knows_put first w d.root rest
  have hpassed : ∀ names ∈ d.passed k, d'.root.Knows names := fun names hmem =>
    hkey.of_isPrefix (passed_isPrefix hmem).1 (passed_isPrefix hmem).2
  rw [MarksKnown, hmarks]
  split
  · exact (hkept.await hpassed).freeze hkey
  · exact hkept.await hpassed

theorem marksKnown_settle (hd : d.MarksKnown) : d.settle.MarksKnown := Marks.On.settle hd

theorem marksKnown_openTable (hd : d.MarksKnown) (h : d.openTable k = .ok d') :
    d'.MarksKnown := by
  obtain ⟨hroot, -, hmarks⟩ := openTable_eq_ok h
  obtain ⟨first, rest, hnames⟩ := List.exists_cons_of_ne_nil (l := k.names) (by simp [Key.names])
  rw [hnames] at hroot hmarks
  obtain ⟨w, hw⟩ := Table.puts_update_cons first rest hroot
  rw [MarksKnown, hmarks, hw]
  exact (marksKnown_put hd first w).declare (Table.knows_put first w d.root rest)

theorem marksKnown_openElement (hd : d.MarksKnown) (h : d.openElement k = .ok d') :
    d'.MarksKnown := by
  obtain ⟨hroot, -, hmarks⟩ := openElement_eq_ok h
  obtain ⟨first, rest, hnames, hputs⟩ := Table.puts_update (Table.puts_extend k.name) k.path
  obtain ⟨w, hw⟩ := hputs hroot
  rw [MarksKnown, hmarks, hw, Key.names, hnames]
  have hkept := (marksKnown_put hd first w).forget (first :: rest)
  exact hkept.declare (Table.knows_put first w d.root rest)

theorem marksKnown_statement {s rest : List Char} (hd : d.MarksKnown)
    (h : d.statement s = .ok (d', rest)) : d'.MarksKnown := by
  rcases statement_cases h with ⟨k, v, h⟩ | ⟨k, h⟩ | ⟨k, h⟩ | rfl
  · exact marksKnown_assign hd h
  · exact marksKnown_openTable (marksKnown_settle hd) h
  · exact marksKnown_openElement (marksKnown_settle hd) h
  · exact hd

theorem marksKnown_readAll {s : List Char} (h : empty.readAll s = .ok d) : d.MarksKnown :=
  readAll_keeps marksKnown_statement marksKnown_empty h

/-! ## A first header -/

/-- No mark keeps a name that is new at the top from being declared or changed. -/
theorem MarksKnown.unmarked (hd : d.MarksKnown) (hfree : d.root.find? name = none) :
    d.marks.isDeclared [name] = false ∧ d.marks.isFrozen [name] = false := by
  have hunknown : ¬d.root.Knows [name] := by
    rintro ⟨first, rest, he, hfind⟩
    cases he
    exact hfind hfree
  constructor
  · rw [Marks.isDeclared, List.contains_eq_mem, decide_eq_false_iff_not]
    exact fun hmem => hunknown (hd _ (.inl hmem))
  · rw [Bool.eq_false_iff, Ne, Marks.isFrozen_iff]
    rintro ⟨top, htop, hp⟩
    have htop' := hd _ (.inr (.inr htop))
    obtain ⟨first, rest, rfl, hfind⟩ := htop'
    obtain ⟨rfl, -⟩ := List.cons_prefix_cons.1 hp
    exact hfind hfree

theorem openTable_of_free (hd : d.MarksKnown) (hfree : d.root.find? name = none) :
    ∃ d', d.settle.openTable ⟨[], name⟩ = .ok d' ∧ d'.header = [name] ∧
      d'.root.find? name = some (.table []) ∧ d'.marks.isFrozen [name] = false := by
  obtain ⟨hdeclared, hfrozen⟩ := (marksKnown_settle hd).unmarked hfree
  have hroot : Table.update .ok [name] d.settle.root = .ok (d.root.put name (.table [])) := by
    rw [Table.update, settle, hfree]
    rfl
  refine ⟨⟨d.root.put name (.table []), [name], d.settle.marks.declare [name]⟩, ?_, rfl,
    Table.find?_put_self _ _ _, hfrozen⟩
  unfold openTable
  simp only [Key.names, List.nil_append, hdeclared, hfrozen, hroot]
  rfl

theorem assign_of_empty (hheader : d.header = [name])
    (hempty : d.root.find? name = some (.table [])) (hfrozen : d.marks.isFrozen [name] = false)
    (key s : String) :
    ∃ d', d.assign ⟨[], key⟩ (.text s) = .ok d' ∧ d'.root.Binds [name, key] s := by
  have hroot : Table.update (Table.add key (.text s) .overwritten) [name] d.root =
      .ok (d.root.put name (.table [(key, .text s)])) := by
    rw [Table.update, hempty]
    rfl
  refine ⟨⟨d.root.put name (.table [(key, .text s)]), [name], d.marks⟩, ?_, ?_⟩
  · have hpassed : d.passed ⟨[], key⟩ = [] := rfl
    unfold assign
    simp only [hpassed, hheader, List.append_nil, List.find?_nil, hfrozen, hroot, ok_bind]
    rfl
  · exact .under (Table.find?_put_self _ _ _) (.here (Table.find?_put_self key (.text s) []))

end Draft

end NuPlugin.Toml
