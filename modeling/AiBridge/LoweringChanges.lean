import AiBridge.AdminConfig

namespace AiBridge

namespace AdminConfig

/-- What the entry of a symbol may do to the one it takes the place of. -/
def LowersEntry (previous entry : PolicySymbolEntry) : Prop :=
  (previous.classification = "critical" ∧ entry.classification = "delegable") ∨
    (entry.symbol ∈ criticalSymbols ∧ previous.autoApproveSeconds = 0 ∧
      0 < entry.autoApproveSeconds)

/-- A wildcard under a new name, an entry that lowers the first one of its symbol, or fewer
sockets. -/
inductive Lowers (previous config : AdminConfig) : Prop
  | wildcard (entry : AllowlistEntry) (hmem : entry ∈ config.allowlist) (hpath : entry.path = "*")
      (hnew : ∀ e ∈ previous.allowlist, e.name ≠ entry.name)
  | policy (entry : PolicySymbolEntry) (hmem : entry ∈ config.policy) (old : PolicySymbolEntry)
      (hold : previous.policyOf entry.symbol = some old) (hlowers : LowersEntry old entry)
  | sockets (hfewer : config.sockets.length < previous.sockets.length)

variable {previous mid config : AdminConfig}

theorem lowersPolicy_iff {entry : PolicySymbolEntry} : lowersPolicy previous entry = true ↔
    ∃ old, previous.policyOf entry.symbol = some old ∧ LowersEntry old entry := by
  unfold lowersPolicy
  cases previous.policyOf entry.symbol with
  | none => simp
  | some old => simp [LowersEntry, and_assoc]

theorem isSecurityLoweringChange_iff :
    config.isSecurityLoweringChange previous = true ↔ Lowers previous config := by
  have hwildcard : (config.allowlist.any fun entry =>
      entry.path = "*" && !previous.allowlist.any fun e => e.name = entry.name) = true ↔
        ∃ entry ∈ config.allowlist, entry.path = "*" ∧
          ∀ e ∈ previous.allowlist, e.name ≠ entry.name := by
    simp
  rw [isSecurityLoweringChange, Bool.or_eq_true, Bool.or_eq_true, hwildcard, List.any_eq_true,
    decide_eq_true_eq]
  constructor
  · intro h
    rcases h with (⟨entry, hmem, hpath, hnew⟩ | ⟨entry, hmem, hentry⟩) | hfewer
    · exact .wildcard entry hmem hpath hnew
    · obtain ⟨old, hold, hlowers⟩ := lowersPolicy_iff.mp hentry
      exact .policy entry hmem old hold hlowers
    · exact .sockets hfewer
  · intro h
    cases h with
    | wildcard entry hmem hpath hnew => exact Or.inl (Or.inl ⟨entry, hmem, hpath, hnew⟩)
    | policy entry hmem old hold hlowers =>
      exact Or.inl (Or.inr ⟨entry, hmem, lowersPolicy_iff.mpr ⟨old, hold, hlowers⟩⟩)
    | sockets hfewer => exact Or.inr hfewer

theorem symbol_of_policyOf {symbol : String} {entry : PolicySymbolEntry}
    (h : config.policyOf symbol = some entry) : entry.symbol = symbol := by
  have hfound := List.find?_some h
  simpa using hfound

theorem mem_of_policyOf {symbol : String} {entry : PolicySymbolEntry}
    (h : config.policyOf symbol = some entry) : entry ∈ config.policy :=
  List.mem_of_find?_eq_some h

theorem exists_policyOf {symbol : String} {entry : PolicySymbolEntry}
    (hmem : entry ∈ config.policy) (hsymbol : entry.symbol = symbol) :
    ∃ first, config.policyOf symbol = some first := by
  have hfound : (config.policyOf symbol).isSome = true := by
    rw [policyOf, List.find?_isSome]
    exact ⟨entry, hmem, by simpa using hsymbol⟩
  exact Option.isSome_iff_exists.mp hfound

/-- What the last of three configurations lowers against the first can be seen in the second: a
new wildcard name is new there too or already a wildcard, a symbol that turns from critical to
delegable is first listed as critical or somewhere as delegable, and a critical symbol that comes to
be approved on its own has an entry. -/
structure NoLaundering (previous mid config : AdminConfig) : Prop where
  wildcard : ∀ entry ∈ config.allowlist, entry.path = "*" →
    (∀ e ∈ previous.allowlist, e.name ≠ entry.name) →
      (∀ e ∈ mid.allowlist, e.name ≠ entry.name) ∨
        ∃ e ∈ mid.allowlist, e.name = entry.name ∧ e.path = "*"
  reclassified : ∀ entry ∈ config.policy, ∀ old, previous.policyOf entry.symbol = some old →
    old.classification = "critical" → entry.classification = "delegable" →
      (∃ between, mid.policyOf entry.symbol = some between ∧
        between.classification = "critical") ∨
        ∃ between ∈ mid.policy, between.symbol = entry.symbol ∧
          between.classification = "delegable"
  autoApproved : ∀ entry ∈ config.policy, ∀ old, previous.policyOf entry.symbol = some old →
    entry.symbol ∈ criticalSymbols → old.autoApproveSeconds = 0 → 0 < entry.autoApproveSeconds →
      ∃ between ∈ mid.policy, between.symbol = entry.symbol

/-- What a change may lower. -/
inductive LoweredItem
  | wildcard (name : String)
  | reclassified (symbol : String)
  | autoApproved (symbol : String)
  | sockets
  deriving DecidableEq, Repr

/-- This very item is lowered by the change. -/
def LowersAt (previous config : AdminConfig) : LoweredItem → Prop
  | .wildcard name => (∀ e ∈ previous.allowlist, e.name ≠ name) ∧
      ∃ entry ∈ config.allowlist, entry.name = name ∧ entry.path = "*"
  | .reclassified symbol =>
      (∃ old, previous.policyOf symbol = some old ∧ old.classification = "critical") ∧
        ∃ entry ∈ config.policy, entry.symbol = symbol ∧ entry.classification = "delegable"
  | .autoApproved symbol => symbol ∈ criticalSymbols ∧
      (∃ old, previous.policyOf symbol = some old ∧ old.autoApproveSeconds = 0) ∧
        ∃ entry ∈ config.policy, entry.symbol = symbol ∧ 0 < entry.autoApproveSeconds
  | .sockets => config.sockets.length < previous.sockets.length

theorem lowers_iff_item : Lowers previous config ↔ ∃ item, LowersAt previous config item := by
  constructor
  · intro h
    cases h with
    | wildcard entry hmem hpath hnew =>
      exact ⟨.wildcard entry.name, hnew, entry, hmem, rfl, hpath⟩
    | policy entry hmem old hold hlowers =>
      rcases hlowers with ⟨hcritical, hdelegable⟩ | ⟨hsymbol, hzero, hpos⟩
      · exact ⟨.reclassified entry.symbol, ⟨old, hold, hcritical⟩, entry, hmem, rfl, hdelegable⟩
      · exact ⟨.autoApproved entry.symbol, hsymbol, ⟨old, hold, hzero⟩, entry, hmem, rfl, hpos⟩
    | sockets hfewer => exact ⟨.sockets, hfewer⟩
  · intro h
    obtain ⟨item, hitem⟩ := h
    cases item with
    | wildcard name =>
      obtain ⟨hnew, entry, hmem, rfl, hpath⟩ := hitem
      exact .wildcard entry hmem hpath hnew
    | reclassified symbol =>
      obtain ⟨⟨old, hold, hcritical⟩, entry, hmem, rfl, hdelegable⟩ := hitem
      exact .policy entry hmem old hold (Or.inl ⟨hcritical, hdelegable⟩)
    | autoApproved symbol =>
      obtain ⟨hsymbol, ⟨old, hold, hzero⟩, entry, hmem, rfl, hpos⟩ := hitem
      exact .policy entry hmem old hold (Or.inr ⟨hsymbol, hzero, hpos⟩)
    | sockets => exact .sockets hitem

/-- A critical symbol that has an entry in between is given its window before it or after it. -/
theorem autoApproved_between {symbol : String} {between : PolicySymbolEntry}
    (hlowers : LowersAt previous config (.autoApproved symbol)) (hmem : between ∈ mid.policy)
    (hsame : between.symbol = symbol) : LowersAt previous mid (.autoApproved symbol) ∨
      LowersAt mid config (.autoApproved symbol) := by
  obtain ⟨hsymbol, hold, hentry⟩ := hlowers
  obtain ⟨first, hfirst⟩ := exists_policyOf hmem hsame
  rcases Nat.eq_zero_or_pos first.autoApproveSeconds with hzero | hpos
  · exact Or.inr ⟨hsymbol, ⟨first, hfirst, hzero⟩, hentry⟩
  · exact Or.inl ⟨hsymbol, hold, first, mem_of_policyOf hfirst, symbol_of_policyOf hfirst, hpos⟩

/-- Nothing is laundered exactly if every item that is lowered over two saves is lowered in one of
them. -/
theorem noLaundering_iff : NoLaundering previous mid config ↔ ∀ item,
    LowersAt previous config item → LowersAt previous mid item ∨ LowersAt mid config item := by
  constructor
  · intro h item hitem
    cases item with
    | wildcard name =>
      obtain ⟨hnew, entry, hmem, rfl, hpath⟩ := hitem
      rcases h.wildcard entry hmem hpath hnew with hfresh | hwild
      · exact Or.inr ⟨hfresh, entry, hmem, rfl, hpath⟩
      · exact Or.inl ⟨hnew, hwild⟩
    | reclassified symbol =>
      obtain ⟨⟨old, hold, hcritical⟩, entry, hmem, rfl, hdelegable⟩ := hitem
      rcases h.reclassified entry hmem old hold hcritical hdelegable with hbetween | hbetween
      · exact Or.inr ⟨hbetween, entry, hmem, rfl, hdelegable⟩
      · exact Or.inl ⟨⟨old, hold, hcritical⟩, hbetween⟩
    | autoApproved symbol =>
      have hlowers : LowersAt previous config (.autoApproved symbol) := hitem
      obtain ⟨hsymbol, ⟨old, hold, hzero⟩, entry, hmem, rfl, hpos⟩ := hitem
      obtain ⟨between, hbetween, hsame⟩ := h.autoApproved entry hmem old hold hsymbol hzero hpos
      exact autoApproved_between hlowers hbetween hsame
    | sockets =>
      have hfewer : config.sockets.length < previous.sockets.length := hitem
      rcases Nat.lt_or_ge mid.sockets.length previous.sockets.length with hless | hmore
      · exact Or.inl hless
      · exact Or.inr (Nat.lt_of_lt_of_le hfewer hmore)
  · intro h
    refine ⟨?_, ?_, ?_⟩
    · intro entry hmem hpath hnew
      rcases h (.wildcard entry.name) ⟨hnew, entry, hmem, rfl, hpath⟩ with hbefore | hafter
      · exact Or.inr hbefore.2
      · exact Or.inl hafter.1
    · intro entry hmem old hold hcritical hdelegable
      rcases h (.reclassified entry.symbol)
        ⟨⟨old, hold, hcritical⟩, entry, hmem, rfl, hdelegable⟩ with hbefore | hafter
      · exact Or.inr hbefore.2
      · exact Or.inl hafter.1
    · intro entry hmem old hold hsymbol hzero hpos
      rcases h (.autoApproved entry.symbol)
        ⟨hsymbol, ⟨old, hold, hzero⟩, entry, hmem, rfl, hpos⟩ with hbefore | hafter
      · obtain ⟨between, hbetween, hsame, _⟩ := hbefore.2.2
        exact ⟨between, hbetween, hsame⟩
      · obtain ⟨between, hbetween, _⟩ := hafter.2.1
        exact ⟨between, mem_of_policyOf hbetween, symbol_of_policyOf hbetween⟩

theorem NoLaundering.lowers (h : NoLaundering previous mid config)
    (hlowers : Lowers previous config) : Lowers previous mid ∨ Lowers mid config := by
  obtain ⟨item, hitem⟩ := lowers_iff_item.mp hlowers
  rcases noLaundering_iff.mp h item hitem with hbefore | hafter
  · exact Or.inl (lowers_iff_item.mpr ⟨item, hbefore⟩)
  · exact Or.inr (lowers_iff_item.mpr ⟨item, hafter⟩)

/-- A run of saves in which nothing is laundered on the way to its end shows a lowering in one of
its saves if it ends lower than it started. -/
theorem exists_lowering_save {start last : AdminConfig} {saves : List AdminConfig}
    (hlast : (start :: saves).getLast? = some last)
    (hnone : ∀ before a b after, start :: saves = before ++ a :: b :: after →
      NoLaundering a b last) (hlowers : Lowers start last) (hne : saves ≠ []) :
    ∃ before a b after, start :: saves = before ++ a :: b :: after ∧ Lowers a b := by
  induction saves generalizing start with
  | nil => exact absurd rfl hne
  | cons next rest ih =>
    have hfirst : start :: next :: rest = [] ++ start :: next :: rest := rfl
    rcases (hnone _ _ _ _ hfirst).lowers hlowers with hsave | hlater
    · exact ⟨_, _, _, _, hfirst, hsave⟩
    · cases rest with
      | nil =>
        have hsame : next = last := by simpa using hlast
        rw [← hsame] at hlowers
        exact ⟨_, _, _, _, hfirst, hlowers⟩
      | cons second rest =>
        have hlast' : (next :: second :: rest).getLast? = some last := by
          rwa [List.getLast?_cons_cons] at hlast
        obtain ⟨before, a, b, after, heq, hsave⟩ := ih hlast'
          (fun before a b after heq => hnone (start :: before) a b after (by rw [heq]; rfl))
          hlater (by simp)
        exact ⟨start :: before, a, b, after, by rw [heq]; rfl, hsave⟩

end AdminConfig

open AdminConfig

/-- Where nothing is laundered, a change that lowers security over two saves is flagged in one of
them, and so is one over any run of saves. What is laundered is an item that is lowered in the end
and in neither of the two saves. -/
theorem lowering_seen (start mid last : AdminConfig) :
    (NoLaundering start mid last → last.isSecurityLoweringChange start = true →
      mid.isSecurityLoweringChange start = true ∨ last.isSecurityLoweringChange mid = true) ∧
    (∀ saves : List AdminConfig, saves ≠ [] → (start :: saves).getLast? = some last →
      (∀ before a b after, start :: saves = before ++ a :: b :: after → NoLaundering a b last) →
      last.isSecurityLoweringChange start = true →
        ∃ before a b after, start :: saves = before ++ a :: b :: after ∧
          b.isSecurityLoweringChange a = true) ∧
    (NoLaundering start mid last ↔ ∀ item,
      LowersAt start last item → LowersAt start mid item ∨ LowersAt mid last item) := by
  refine ⟨?_, ?_, noLaundering_iff⟩
  · intro hnone hlowers
    rw [isSecurityLoweringChange_iff] at hlowers
    rw [isSecurityLoweringChange_iff, isSecurityLoweringChange_iff]
    exact hnone.lowers hlowers
  · intro saves hne hlast hnone hlowers
    rw [isSecurityLoweringChange_iff] at hlowers
    obtain ⟨before, a, b, after, heq, hsave⟩ := exists_lowering_save hlast hnone hlowers hne
    exact ⟨before, a, b, after, heq, isSecurityLoweringChange_iff.mpr hsave⟩

def secretsAs (classification : String) (allowlist : List AllowlistEntry) : AdminConfig :=
  { AdminConfig.empty with allowlist, policy := [⟨"CRIT.SECRET", classification, 0⟩] }

/-- A binary is listed first. The next save makes it a wildcard under a second name and turns the
secrets from critical to delegable. -/
theorem reclassified_seen :
    let start := secretsAs "critical" []
    let mid := secretsAs "critical" [⟨"ls", "/bin/ls", true, []⟩]
    let last := secretsAs "delegable" [⟨"ls", "/bin/ls", true, []⟩, ⟨"sh", "*", true, []⟩]
    ∃ before a b after, [start, mid, last] = before ++ a :: b :: after ∧
      b.isSecurityLoweringChange a = true := by
  intro start mid last
  have hbegin : NoLaundering start mid last := by
    refine ⟨?_, ?_, ?_⟩
    · intro entry hmem hpath _
      left
      intro e he hname
      simp only [last, mid, secretsAs, List.mem_cons, List.not_mem_nil, or_false] at hmem he
      rcases hmem with rfl | rfl
      · simp at hpath
      · rw [he] at hname
        simp at hname
    · intro entry hmem _ _ _ _
      left
      rw [List.mem_singleton.mp hmem]
      exact ⟨⟨"CRIT.SECRET", "critical", 0⟩, rfl, rfl⟩
    · intro entry hmem _ _ _ _ _
      rw [List.mem_singleton.mp hmem]
      exact ⟨⟨"CRIT.SECRET", "critical", 0⟩, List.mem_singleton.mpr rfl, rfl⟩
  have hend : NoLaundering mid last last := by
    apply noLaundering_iff.mpr
    intro item hitem
    exact Or.inl hitem
  have hsaves : ∀ before a b after, [start, mid, last] = before ++ a :: b :: after →
      NoLaundering a b last := by
    intro before a b after heq
    rcases before with _ | ⟨first, _ | ⟨second, rest⟩⟩
    · simp only [List.nil_append, List.cons.injEq] at heq
      rw [← heq.1, ← heq.2.1]
      exact hbegin
    · simp only [List.cons_append, List.nil_append, List.cons.injEq] at heq
      rw [← heq.2.1, ← heq.2.2.1]
      exact hend
    · have hlength := congrArg List.length heq
      simp only [List.length_cons, List.length_append, List.length_nil] at hlength
      omega
  exact (lowering_seen start mid last).2.1 [mid, last] (List.cons_ne_nil _ _) rfl hsaves (by decide)

/-- A binary is listed under its path first and gets the wildcard in the next save. -/
theorem wildcard_laundered :
    let listing : String → AdminConfig := fun path =>
      { AdminConfig.empty with allowlist := [⟨"sh", path, true, []⟩] }
    (listing "*").isSecurityLoweringChange .empty = true ∧
      (listing "/bin/sh").isSecurityLoweringChange .empty = false ∧
      (listing "*").isSecurityLoweringChange (listing "/bin/sh") = false := by
  decide

end AiBridge
