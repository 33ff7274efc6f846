import Mathlib.Data.Finmap
import Mathlib.Tactic.Abel

namespace Finmap

variable {α β γ : Type*}

/-- One pass over an unordered map that rewrites every value in place. -/
def mapVal (f : α → β → β) (m : Finmap fun _ : α => β) : Finmap fun _ : α => β where
  entries := m.entries.map fun e => ⟨e.1, f e.1 e.2⟩
  nodupKeys := by
    have h := m.nodupKeys
    rw [← Multiset.nodup_keys] at h ⊢
    simpa [Multiset.keys] using h

/-- What one pass over an unordered map pushes, with its key and without an order. -/
def collect (g : α → β → Option γ) (m : Finmap fun _ : α => β) : Multiset (α × γ) :=
  m.entries.filterMap fun e => (g e.1 e.2).map (Prod.mk e.1)

/-- A pass behind a rewriting pass sees the values as they were rewritten. -/
theorem collect_mapVal (f : α → β → β) (g : α → β → Option γ) (m : Finmap fun _ : α => β) :
    (m.mapVal f).collect g = m.collect fun a b => g a (f a b) := by
  rw [collect, mapVal, Multiset.filterMap_map]
  rfl

/-- Two passes that push for different values push together what one pass pushes that does the
work of both. -/
theorem collect_add {g h both : α → β → Option γ} {m : Finmap fun _ : α => β}
    (hsplit : ∀ a b, (g a b = none ∧ both a b = h a b) ∨ (h a b = none ∧ both a b = g a b)) :
    m.collect g + m.collect h = m.collect both := by
  have hadd : ∀ s : Multiset (Σ _ : α, β),
      (s.filterMap fun e => (g e.1 e.2).map (Prod.mk e.1)) +
          (s.filterMap fun e => (h e.1 e.2).map (Prod.mk e.1)) =
        s.filterMap fun e => (both e.1 e.2).map (Prod.mk e.1) := by
    intro s
    induction s using Multiset.induction_on with
    | empty => rfl
    | cons e s ih =>
      simp only [Multiset.filterMap_cons, ← ih]
      rcases hsplit e.1 e.2 with ⟨hg, hboth⟩ | ⟨hh, hboth⟩
      · simp only [hg, hboth, Option.map_none, Option.getD_none, zero_add]
        abel
      · simp only [hh, hboth, Option.map_none, Option.getD_none, zero_add]
        abel
  exact hadd m.entries

variable [DecidableEq α]

theorem lookup_mapVal (f : α → β → β) (m : Finmap fun _ : α => β) (a : α) :
    (m.mapVal f).lookup a = (m.lookup a).map (f a) := by
  apply Option.ext
  intro b
  rw [lookup_eq_some_iff, Option.map_eq_some_iff]
  simp only [mapVal, Multiset.mem_map]
  constructor
  · rintro ⟨⟨k, v⟩, hmem, heq⟩
    cases heq
    exact ⟨v, lookup_eq_some_iff.mpr hmem, rfl⟩
  · rintro ⟨v, hv, rfl⟩
    exact ⟨⟨a, v⟩, lookup_eq_some_iff.mp hv, rfl⟩

theorem mapVal_mapVal (f g : α → β → β) (m : Finmap fun _ : α => β) :
    (m.mapVal f).mapVal g = m.mapVal fun a b => g a (f a b) := by
  apply ext_lookup
  intro a
  simp only [lookup_mapVal, Option.map_map]
  rfl

theorem insert_eq_self_iff {m : Finmap fun _ : α => β} {a : α} {b : β} :
    m.insert a b = m ↔ m.lookup a = some b := by
  constructor
  · intro h
    rw [← h, lookup_insert]
  · intro h
    apply ext_lookup
    intro k
    by_cases hk : k = a
    · rw [hk, lookup_insert, h]
    · rw [lookup_insert_of_ne m hk]

theorem mem_collect {g : α → β → Option γ} {m : Finmap fun _ : α => β} {a : α} {c : γ} :
    (a, c) ∈ m.collect g ↔ (m.lookup a).bind (g a) = some c := by
  simp only [collect, Multiset.mem_filterMap, Option.map_eq_some_iff, Option.bind_eq_some_iff]
  constructor
  · rintro ⟨⟨k, v⟩, hmem, d, hg, heq⟩
    cases heq
    exact ⟨v, lookup_eq_some_iff.mpr hmem, hg⟩
  · rintro ⟨v, hv, hg⟩
    exact ⟨⟨a, v⟩, lookup_eq_some_iff.mp hv, c, hg, rfl⟩

omit [DecidableEq α] in
/-- A pass pushes at most once for each key. -/
theorem nodup_keys_collect (g : α → β → Option γ) (m : Finmap fun _ : α => β) :
    ((m.collect g).map Prod.fst).Nodup := by
  have hle : ∀ s : Multiset (Σ _ : α, β),
      (s.filterMap fun e => (g e.1 e.2).map (Prod.mk e.1)).map Prod.fst ≤ s.keys := by
    intro s
    induction s using Multiset.induction_on with
    | empty => simp
    | cons e s ih =>
      rw [Multiset.filterMap_cons, Multiset.map_add,
        show (e ::ₘ s).keys = e.1 ::ₘ s.keys from Multiset.map_cons _ _ _]
      cases g e.1 e.2 with
      | none => simpa using ih.trans (Multiset.le_cons_self s.keys e.1)
      | some c => simpa using Multiset.cons_le_cons e.1 ih
  exact Multiset.nodup_of_le (hle m.entries) (Multiset.nodup_keys.mpr m.nodupKeys)

/-- The pass over the map, seen at one key, is what the visitor does at that key. -/
theorem filter_collect (g : α → β → Option γ) (m : Finmap fun _ : α => β) (a : α) :
    (m.collect g).filter (fun out => out.1 = a) =
      ((m.lookup a).bind (g a)).elim 0 fun c => {(a, c)} := by
  have hnodup : (m.collect g).Nodup := (nodup_keys_collect g m).of_map
  apply (Multiset.Nodup.ext (hnodup.filter _) (by cases (m.lookup a).bind (g a) <;> simp)).mpr
  rintro ⟨k, c⟩
  rw [Multiset.mem_filter]
  constructor
  · rintro ⟨hmem, rfl⟩
    simp [mem_collect.mp hmem]
  · intro hmem
    cases hb : (m.lookup a).bind (g a) with
    | none => simp [hb] at hmem
    | some d =>
      obtain ⟨rfl, rfl⟩ : k = a ∧ c = d := by simpa [hb] using hmem
      exact ⟨mem_collect.mpr hb, rfl⟩

end Finmap
