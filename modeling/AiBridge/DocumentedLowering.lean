import AiBridge.LoweringChanges
import Mathlib.Data.List.Perm.Subperm

namespace AiBridge

namespace AdminConfig

/-- No list has two entries of one name. -/
structure UniqueNames (config : AdminConfig) : Prop where
  allowlist : (config.allowlist.map AllowlistEntry.name).Nodup
  policy : (config.policy.map PolicySymbolEntry.symbol).Nodup
  sockets : (config.sockets.map SocketDefinition.name).Nodup

/-- The changes that are documented to lower security. -/
inductive LowersAsDocumented (previous config : AdminConfig) : Prop
  | wildcard (entry : AllowlistEntry) (hmem : entry ∈ config.allowlist) (hpath : entry.path = "*")
      (hnew : ∀ e ∈ previous.allowlist, e.name = entry.name → e.path ≠ "*")
  | reclassified (old : PolicySymbolEntry) (hold : old ∈ previous.policy)
      (hcritical : old.classification = "critical") (entry : PolicySymbolEntry)
      (hmem : entry ∈ config.policy) (hsame : entry.symbol = old.symbol)
      (hdelegable : entry.classification = "delegable")
  | autoApproved (entry : PolicySymbolEntry) (hmem : entry ∈ config.policy)
      (hsymbol : entry.symbol ∈ criticalSymbols) (hpos : 0 < entry.autoApproveSeconds)
      (hnever : ∀ old ∈ previous.policy, old.symbol = entry.symbol → old.autoApproveSeconds = 0)
  | removed (sock : SocketDefinition) (hold : sock ∈ previous.sockets)
      (hmissing : ∀ s ∈ config.sockets, s.name ≠ sock.name)

/-- Changes of these kinds that the checks pass over: a listed name gets the wildcard, a critical
symbol comes into the policy with a window, a socket makes room for another. -/
inductive Overlooked (previous config : AdminConfig) : Prop
  | rewritten (entry : AllowlistEntry) (hmem : entry ∈ config.allowlist) (hpath : entry.path = "*")
      (hlisted : ∃ e ∈ previous.allowlist, e.name = entry.name)
      (hnew : ∀ e ∈ previous.allowlist, e.name = entry.name → e.path ≠ "*")
  | introduced (entry : PolicySymbolEntry) (hmem : entry ∈ config.policy)
      (hsymbol : entry.symbol ∈ criticalSymbols) (hpos : 0 < entry.autoApproveSeconds)
      (hnone : ∀ old ∈ previous.policy, old.symbol ≠ entry.symbol)
  | replaced (sock : SocketDefinition) (hold : sock ∈ previous.sockets)
      (hmissing : ∀ s ∈ config.sockets, s.name ≠ sock.name)
      (hcount : previous.sockets.length ≤ config.sockets.length)

variable {previous config : AdminConfig}

/-- With unique names the first entry of a symbol is the only one. -/
theorem policyOf_eq_some_iff (h : config.UniqueNames) {symbol : String} {entry : PolicySymbolEntry} :
    config.policyOf symbol = some entry ↔ entry ∈ config.policy ∧ entry.symbol = symbol := by
  constructor
  · intro hfound
    exact ⟨mem_of_policyOf hfound, symbol_of_policyOf hfound⟩
  · intro hentry
    obtain ⟨hmem, hsymbol⟩ := hentry
    obtain ⟨first, hfirst⟩ := exists_policyOf hmem hsymbol
    have hsame : first = entry := by
      apply List.inj_on_of_nodup_map h.policy (mem_of_policyOf hfirst) hmem
      rw [symbol_of_policyOf hfirst, hsymbol]
    rw [hfirst, hsame]

/-- Fewer sockets than there were names leave some name out. -/
theorem removed_of_fewer (h : previous.UniqueNames)
    (hfewer : config.sockets.length < previous.sockets.length) :
    ∃ sock ∈ previous.sockets, ∀ s ∈ config.sockets, s.name ≠ sock.name := by
  by_contra hnone
  have hsubset : previous.sockets.map SocketDefinition.name ⊆
      config.sockets.map SocketDefinition.name := by
    intro name hname
    obtain ⟨sock, hmem, hsock⟩ := List.mem_map.mp hname
    by_contra hmissing
    apply hnone
    refine ⟨sock, hmem, ?_⟩
    intro s hs heq
    apply hmissing
    rw [← hsock, ← heq]
    exact List.mem_map_of_mem hs
  have hlength := (List.subperm_of_subset h.sockets hsubset).length_le
  rw [List.length_map, List.length_map] at hlength
  omega

/-- What is noticed is documented. -/
theorem documented_of_lowers (h : previous.UniqueNames) (hlowers : Lowers previous config) :
    LowersAsDocumented previous config := by
  cases hlowers with
  | wildcard entry hmem hpath hnew =>
    exact .wildcard entry hmem hpath fun e he hname => absurd hname (hnew e he)
  | policy entry hmem old hold hentry =>
    obtain ⟨hin, hsame⟩ := (policyOf_eq_some_iff h).mp hold
    rcases hentry with ⟨hcritical, hdelegable⟩ | ⟨hsymbol, hzero, hpos⟩
    · exact .reclassified old hin hcritical entry hmem hsame.symm hdelegable
    · refine .autoApproved entry hmem hsymbol hpos ?_
      intro other hother hname
      have hfirst := (policyOf_eq_some_iff h).mpr ⟨hother, hname⟩
      rw [hold, Option.some.injEq] at hfirst
      rw [← hfirst, hzero]
  | sockets hfewer =>
    obtain ⟨sock, hold, hmissing⟩ := removed_of_fewer h hfewer
    exact .removed sock hold hmissing

theorem documented_of_overlooked (h : Overlooked previous config) :
    LowersAsDocumented previous config := by
  cases h with
  | rewritten entry hmem hpath hlisted hnew => exact .wildcard entry hmem hpath hnew
  | introduced entry hmem hsymbol hpos hnone =>
    exact .autoApproved entry hmem hsymbol hpos fun old hold hname => absurd hname (hnone old hold)
  | replaced sock hold hmissing hcount => exact .removed sock hold hmissing

/-- What is documented is noticed or overlooked. -/
theorem noticed_or_overlooked (h : previous.UniqueNames)
    (hdocumented : LowersAsDocumented previous config) :
    Lowers previous config ∨ Overlooked previous config := by
  cases hdocumented with
  | wildcard entry hmem hpath hnew =>
    by_cases hlisted : ∃ e ∈ previous.allowlist, e.name = entry.name
    · exact Or.inr (.rewritten entry hmem hpath hlisted hnew)
    · refine Or.inl (.wildcard entry hmem hpath ?_)
      intro e he hname
      exact hlisted ⟨e, he, hname⟩
  | reclassified old hold hcritical entry hmem hsame hdelegable =>
    have hfirst := (policyOf_eq_some_iff h).mpr ⟨hold, hsame.symm⟩
    exact Or.inl (.policy entry hmem old hfirst (Or.inl ⟨hcritical, hdelegable⟩))
  | autoApproved entry hmem hsymbol hpos hnever =>
    by_cases hlisted : ∃ old ∈ previous.policy, old.symbol = entry.symbol
    · obtain ⟨old, hold, hname⟩ := hlisted
      have hfirst := (policyOf_eq_some_iff h).mpr ⟨hold, hname⟩
      have hzero := hnever old hold hname
      exact Or.inl (.policy entry hmem old hfirst (Or.inr ⟨hsymbol, hzero, hpos⟩))
    · refine Or.inr (.introduced entry hmem hsymbol hpos ?_)
      intro old hold hname
      exact hlisted ⟨old, hold, hname⟩
  | removed sock hold hmissing =>
    rcases Nat.lt_or_ge config.sockets.length previous.sockets.length with hfewer | hcount
    · exact Or.inl (.sockets hfewer)
    · exact Or.inr (.replaced sock hold hmissing hcount)

theorem not_lowers_self (h : config.UniqueNames) : ¬Lowers config config := by
  intro hlowers
  cases hlowers with
  | wildcard entry hmem hpath hnew => exact hnew entry hmem rfl
  | policy entry hmem old hold hentry =>
    have hself := (policyOf_eq_some_iff h).mpr ⟨hmem, rfl⟩
    rw [hself, Option.some.injEq] at hold
    rw [← hold] at hentry
    rcases hentry with ⟨hcritical, hdelegable⟩ | ⟨_, hzero, hpos⟩
    · rw [hcritical] at hdelegable
      exact absurd hdelegable (by decide)
    · omega
  | sockets hfewer => omega

end AdminConfig

open AdminConfig

/-- Where no change is overlooked, the detector flags exactly what is documented. What is documented
is flagged or overlooked in every case, and an unchanged configuration is never flagged. -/
theorem lowering_documented (previous config : AdminConfig) (hprevious : previous.UniqueNames)
    (hconfig : config.UniqueNames) :
    (¬Overlooked previous config →
      (config.isSecurityLoweringChange previous = true ↔ LowersAsDocumented previous config)) ∧
    (LowersAsDocumented previous config ↔
      config.isSecurityLoweringChange previous = true ∨ Overlooked previous config) ∧
    config.isSecurityLoweringChange config = false := by
  rw [isSecurityLoweringChange_iff]
  have hcases : LowersAsDocumented previous config ↔
      Lowers previous config ∨ Overlooked previous config := by
    constructor
    · exact noticed_or_overlooked hprevious
    · intro h
      rcases h with hnoticed | hoverlooked
      · exact documented_of_lowers hprevious hnoticed
      · exact documented_of_overlooked hoverlooked
  refine ⟨?_, hcases, ?_⟩
  · intro hnone
    rw [hcases, or_iff_left hnone]
  · rw [← Bool.not_eq_true, isSecurityLoweringChange_iff]
    exact not_lowers_self hconfig

/-- Secrets turn from critical to delegable, and a socket is added. -/
theorem reclassified_flagged :
    let policy : String → List SocketDefinition → AdminConfig := fun classification sockets =>
      { AdminConfig.empty with policy := [⟨"CRIT.SECRET", classification, 0⟩], sockets }
    let config := policy "delegable" [⟨"ui", "ui.sock", "0600"⟩, ⟨"debug", "debug.sock", "0600"⟩]
    let previous := policy "critical" [⟨"ui", "ui.sock", "0600"⟩]
    config.isSecurityLoweringChange previous = true ↔ LowersAsDocumented previous config := by
  intro policy config previous
  have hprevious : previous.UniqueNames := by
    refine ⟨?_, ?_, ?_⟩
    all_goals simp [previous, policy, AdminConfig.empty]
  have hconfig : config.UniqueNames := by
    refine ⟨?_, ?_, ?_⟩
    all_goals simp [config, policy, AdminConfig.empty]
  have hnone : ¬Overlooked previous config := by
    intro h
    cases h with
    | rewritten entry hmem _ _ _ => simp [config, policy, AdminConfig.empty] at hmem
    | introduced entry hmem _ hpos _ =>
      rw [List.mem_singleton.mp hmem] at hpos
      simp at hpos
    | replaced sock hold hmissing _ =>
      rw [List.mem_singleton.mp hold] at hmissing
      exact hmissing ⟨"ui", "ui.sock", "0600"⟩ List.mem_cons_self rfl
  exact (lowering_documented previous config hprevious hconfig).1 hnone

/-- The socket of the UI makes room for another one. -/
theorem replaced_socket_unseen :
    let listening : String → AdminConfig := fun name =>
      { AdminConfig.empty with sockets := [⟨name, name ++ ".sock", "0600"⟩] }
    (listening "ui").UniqueNames ∧ (listening "debug").UniqueNames ∧
      LowersAsDocumented (listening "ui") (listening "debug") ∧
      (listening "debug").isSecurityLoweringChange (listening "ui") = false := by
  intro listening
  have hunique : ∀ name, (listening name).UniqueNames := by
    intro name
    refine ⟨?_, ?_, ?_⟩
    all_goals simp [listening, AdminConfig.empty]
  refine ⟨hunique _, hunique _, .removed _ List.mem_cons_self ?_, by decide⟩
  intro s hs
  rw [List.mem_singleton.mp hs]
  decide

end AiBridge
