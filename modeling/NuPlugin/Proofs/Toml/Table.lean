import NuPlugin.Proofs.Except
import NuPlugin.Toml.Table

/-!
# Texts in a table

A text is bound under the names that lead to it from table to table, past no array. What a
document adds to a table never takes the place of one.
-/

namespace NuPlugin.Toml.Table

variable {t t' inner : Table} {name other : String} {v : Value} {path p : List String} {s : String}

/-! ## Entries -/

theorem find?_put_self (name : String) (v : Value) (t : Table) :
    (t.put name v).find? name = some v := by
  induction t with
  | nil => simp [put, find?]
  | cons entry t ih =>
    obtain ⟨key, w⟩ := entry
    rw [put]
    split
    · simp [find?]
    · next he =>
      have hne : (name == key) = false := by simpa using Ne.symm he
      simpa only [find?, List.lookup_cons, hne] using ih

theorem find?_put_of_ne (h : other ≠ name) (v : Value) (t : Table) :
    (t.put name v).find? other = t.find? other := by
  induction t with
  | nil => simp [put, find?, h]
  | cons entry t ih =>
    obtain ⟨key, w⟩ := entry
    rw [put]
    split
    · next he =>
      have hne : (other == name) = false := by simpa using h
      subst he
      simp only [find?, List.lookup_cons, hne]
    · simp only [find?, List.lookup_cons] at ih ⊢
      rw [ih]

/-! ## Bindings -/

/-- The text `s` stands in the table under a path of names. -/
inductive Binds : Table → List String → String → Prop where
  | here {t : Table} {name s : String} (h : t.find? name = some (.text s)) : Binds t [name] s
  | under {t inner : Table} {name : String} {path : List String} {s : String}
      (h : t.find? name = some (.table inner)) (hs : Binds inner path s) :
      Binds t (name :: path) s

namespace Binds

theorem ne_nil (h : Binds t path s) : path ≠ [] := by
  cases h <;> exact List.cons_ne_nil _ _

theorem find?_cases (h : Binds t (name :: path) s) :
    (path = [] ∧ t.find? name = some (.text s)) ∨
      ∃ inner, t.find? name = some (.table inner) ∧ Binds inner path s := by
  cases h with
  | here h => exact Or.inl ⟨rfl, h⟩
  | under h hs => exact Or.inr ⟨_, h, hs⟩

theorem congr (h : Binds t (name :: path) s) (hfind : t'.find? name = t.find? name) :
    Binds t' (name :: path) s := by
  cases h with
  | here h => exact .here (hfind.trans h)
  | under h hs => exact .under (hfind.trans h) hs

theorem not_empty (h : Binds [] path s) : False := by
  cases h with
  | here h => cases h
  | under h hs => cases h

end Binds

/-! ## What keeps a binding -/

/-- A change of tables that leaves every text where it is. -/
def Keeps (change : Table → Except Cause Table) : Prop :=
  ∀ {t t' p s}, change t = .ok t' → Binds t p s → Binds t' p s

theorem keeps_ok : Keeps .ok := by
  intro t t' p s h hs
  cases h
  exact hs

theorem add_eq_ok {taken : Cause} (h : add name v taken t = .ok t') :
    t.find? name = none ∧ t' = t.put name v := by
  unfold add at h
  split at h
  · next hfind => exact ⟨hfind, (Except.ok.inj h).symm⟩
  · cases h

theorem keeps_put (hfind : ∀ {p s}, ¬Binds t (name :: p) s) (h : Binds t p s) :
    Binds (t.put name v) p s := by
  cases p with
  | nil => exact absurd rfl h.ne_nil
  | cons other p =>
    have hne : other ≠ name := by
      rintro rfl
      exact hfind h
    exact h.congr (find?_put_of_ne hne v t)

theorem keeps_add (name : String) (v : Value) (taken : Cause) : Keeps (add name v taken) := by
  intro t t' p s h hs
  obtain ⟨hfind, rfl⟩ := add_eq_ok h
  refine keeps_put (fun {p s} hs => ?_) hs
  rcases hs.find?_cases with ⟨-, hs⟩ | ⟨inner, hs, -⟩
  · rw [hfind] at hs
    cases hs
  · rw [hfind] at hs
    cases hs

theorem extend_not_binds (h : extend name t = .ok t') (p : List String) (s : String) :
    ¬Binds t (name :: p) s := by
  intro hs
  unfold extend at h
  rcases hs.find?_cases with ⟨-, hs⟩ | ⟨inner, hs, -⟩
  · rw [hs] at h
    cases h
  · rw [hs] at h
    cases h

theorem extend_eq_ok (h : extend name t = .ok t') :
    ∃ items, t' = t.put name (.array items) := by
  unfold extend at h
  split at h
  · exact ⟨_, (Except.ok.inj h).symm⟩
  · exact ⟨_, (Except.ok.inj h).symm⟩
  · cases h

theorem keeps_extend (name : String) : Keeps (extend name) := by
  intro t t' p s h hs
  obtain ⟨items, rfl⟩ := extend_eq_ok h
  exact keeps_put (fun {p s} => extend_not_binds h p s) hs

theorem update_cons_eq_ok {change : Table → Except Cause Table}
    (h : update change (name :: path) t = .ok t') :
    ∃ inner close inner', enter (t.find? name) = some (inner, close) ∧
      update change path inner = .ok inner' ∧ t' = t.put name (close inner') := by
  rw [update] at h
  split at h
  · cases h
  · next inner close henter =>
    obtain ⟨inner', hinner, h⟩ := bind_eq_ok.1 h
    exact ⟨inner, close, inner', henter, hinner, (Except.ok.inj h).symm⟩

theorem keeps_update {change : Table → Except Cause Table} (hchange : Keeps change)
    (path : List String) : Keeps (update change path) := by
  intro t t' p s h hs
  induction path generalizing t t' p with
  | nil => exact hchange h hs
  | cons name path ih =>
    obtain ⟨inner, close, inner', henter, hinner, rfl⟩ := update_cons_eq_ok h
    cases p with
    | nil => exact absurd rfl hs.ne_nil
    | cons other p =>
      by_cases hne : other = name
      · subst hne
        rcases hs.find?_cases with ⟨-, hfind⟩ | ⟨inner₀, hfind, hbelow⟩
        · rw [hfind] at henter
          cases henter
        · rw [hfind] at henter
          cases henter
          exact .under (find?_put_self _ _ t) (ih hinner hbelow)
      · exact hs.congr (find?_put_of_ne hne _ t)

/-! ## Where a binding comes from -/

theorem binds_put (h : Binds (t.put name v) p s) :
    Binds t p s ∨ ∃ q, p = name :: q ∧
      ((q = [] ∧ v = .text s) ∨ ∃ inner, v = .table inner ∧ Binds inner q s) := by
  cases p with
  | nil => exact absurd rfl h.ne_nil
  | cons other p =>
    by_cases hne : other = name
    · subst hne
      right
      refine ⟨p, rfl, ?_⟩
      rcases h.find?_cases with ⟨rfl, hfind⟩ | ⟨inner, hfind, hbelow⟩
      · rw [find?_put_self] at hfind
        exact Or.inl ⟨rfl, Option.some.inj hfind⟩
      · rw [find?_put_self] at hfind
        exact Or.inr ⟨inner, Option.some.inj hfind, hbelow⟩
    · exact Or.inl (h.congr (find?_put_of_ne hne v t).symm)

theorem extend_binds (h : extend name t = .ok t') (hs : Binds t' p s) : Binds t p s := by
  obtain ⟨items, rfl⟩ := extend_eq_ok h
  rcases binds_put hs with hs | ⟨q, -, ⟨-, hv⟩ | ⟨inner, hv, -⟩⟩
  · exact hs
  · cases hv
  · cases hv

theorem enter_cases {found : Option Value} {close : Table → Value}
    (h : enter found = some (inner, close)) :
    (close = .table ∧ (found = none ∧ inner = [] ∨ found = some (.table inner))) ∨
      ∀ changed, ∃ items, close changed = .array items := by
  unfold enter at h
  split at h
  · cases h
    exact Or.inl ⟨rfl, Or.inl ⟨rfl, rfl⟩⟩
  · cases h
    exact Or.inl ⟨rfl, Or.inr rfl⟩
  · split at h
    · cases h
      exact Or.inr fun changed => ⟨_, rfl⟩
    · cases h
  · cases h

/-- A binding was there before an update, or the change at the end of the path made it. -/
theorem update_binds {change : Table → Except Cause Table} (h : update change path t = .ok t')
    (hs : Binds t' p s) :
    Binds t p s ∨ ∃ q inner inner', p = path ++ q ∧ change inner = .ok inner' ∧
      ¬Binds inner q s ∧ Binds inner' q s := by
  induction path generalizing t t' p with
  | nil =>
    by_cases hbefore : Binds t p s
    · exact Or.inl hbefore
    · exact Or.inr ⟨p, t, t', rfl, h, hbefore, hs⟩
  | cons name path ih =>
    obtain ⟨inner, close, inner', henter, hinner, rfl⟩ := update_cons_eq_ok h
    rcases binds_put hs with hs | ⟨q, rfl, hq⟩
    · exact Or.inl hs
    · rcases enter_cases henter with ⟨rfl, hfound⟩ | harray
      · rcases hq with ⟨-, hv⟩ | ⟨changed, hv, hq⟩
        · cases hv
        · cases hv
          rcases ih hinner hq with hbefore | ⟨q', i, i', rfl, hmade⟩
          · rcases hfound with ⟨-, rfl⟩ | hfound
            · exact absurd hbefore Binds.not_empty
            · exact Or.inl (.under hfound hbefore)
          · exact Or.inr ⟨q', i, i', rfl, hmade⟩
      · -- What stands behind an array is not bound.
        obtain ⟨items, hitems⟩ := harray inner'
        rw [hitems] at hq
        rcases hq with ⟨-, hv⟩ | ⟨changed, hv, -⟩
        · cases hv
        · cases hv

theorem update_extend_not_binds (h : update (extend name) path t = .ok t')
    (hs : Binds t p s) : ¬path ++ [name] <+: p := by
  rintro ⟨q, rfl⟩
  induction path generalizing t t' with
  | nil => exact extend_not_binds h q s hs
  | cons first path ih =>
    obtain ⟨inner, close, inner', henter, hinner, rfl⟩ := update_cons_eq_ok h
    rcases hs.find?_cases with ⟨hnil, -⟩ | ⟨inner₀, hfind, hbelow⟩
    · simp at hnil
    · rw [hfind] at henter
      cases henter
      exact ih hinner hbelow

end NuPlugin.Toml.Table
