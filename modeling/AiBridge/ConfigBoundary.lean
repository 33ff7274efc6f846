import AiBridge.AdminConfig
import Mathlib.Data.String.Basic

namespace AiBridge

open Text

/-- The name of a symbol that is classified as critical. -/
def NamesCritical (name : String) : Prop :=
  ∃ symbol : Symbol, symbol.literalName = name ∧ symbol.classification = .critical

/-- Four characters, a zero and three octal digits. -/
def FourOctal (permissions : String) : Prop :=
  permissions.toList.length = 4 ∧ permissions.toList.head? = some '0' ∧
    ∀ c ∈ permissions.toList, '0' ≤ c ∧ c ≤ '7'

namespace AdminConfig

/-- The boundary that validation is documented to enforce. -/
structure Boundary (rx : RegexEngine) (config : AdminConfig) : Prop where
  allowlistNames : (config.allowlist.map AllowlistEntry.name).Nodup
  noWildcard : ∀ entry ∈ config.allowlist, entry.path ≠ "*"
  symbols : ∀ entry ∈ config.symbols, NamesCritical entry.name → entry.classification ≠ "delegable"
  policy : ∀ entry ∈ config.policy, NamesCritical entry.symbol → entry.classification ≠ "delegable"
  neverAutoApproved : ∀ entry ∈ config.policy, NamesCritical entry.symbol →
    entry.autoApproveSeconds = 0
  criteria : ∀ set ∈ config.criteria, ∀ pattern ∈ set.patterns, (rx.new pattern).isSome
  permissions : ∀ sock ∈ config.sockets, FourOctal sock.permissions
  socketNames : (config.sockets.map SocketDefinition.name).Nodup

/-- What the boundary asks beyond the checks: of the listed symbols, and of the digits of the
permissions. -/
structure KeepsUnchecked (config : AdminConfig) : Prop where
  symbols : ∀ entry ∈ config.symbols, entry.name ∈ criticalSymbols →
    entry.classification ≠ "delegable"
  digits : ∀ sock ∈ config.sockets, '8' ∉ sock.permissions.toList ∧ '9' ∉ sock.permissions.toList

/-- The list of critical symbols is that of the enumeration. -/
theorem mem_criticalSymbols_iff {name : String} : name ∈ criticalSymbols ↔ NamesCritical name := by
  constructor
  · intro h
    have hnamed : ∀ name ∈ criticalSymbols, ∃ symbol ∈ Symbol.all,
        symbol.literalName = name ∧ symbol.classification = .critical := by decide
    obtain ⟨symbol, _, hsymbol⟩ := hnamed name h
    exact ⟨symbol, hsymbol⟩
  · intro h
    obtain ⟨symbol, hname, hcritical⟩ := h
    rw [← hname]
    cases symbol <;> first | decide | exact absurd hcritical (by decide)

theorem octal_iff {c : Char} : ('0' ≤ c ∧ c ≤ '7') ↔ c.isDigit = true ∧ c ≠ '8' ∧ c ≠ '9' := by
  have h0 : '0'.val.toNat = 48 := rfl
  have h7 : '7'.val.toNat = 55 := rfl
  have h8 : '8'.val.toNat = 56 := rfl
  have h9 : '9'.val.toNat = 57 := rfl
  simp only [Char.isDigit, Bool.and_eq_true, decide_eq_true_eq, Char.le_def, ne_eq, Char.ext_iff,
    UInt32.le_iff_toNat_le, ← UInt32.toNat_inj, ge_iff_le]
  rw [h0, h7, h8, h9]
  have h0' : (48 : UInt32).toNat = 48 := rfl
  have h9' : (57 : UInt32).toNat = 57 := rfl
  omega

theorem utf8Size_of_isDigit {c : Char} (h : c.isDigit = true) : c.utf8Size = 1 := by
  have hle : c.val ≤ 57 := by
    simp only [Char.isDigit, Bool.and_eq_true, decide_eq_true_eq] at h
    exact h.2
  have hnine : (57 : UInt32).toNat = 57 := rfl
  have hascii : (127 : UInt32).toNat = 127 := rfl
  rw [UInt32.le_iff_toNat_le] at hle
  apply Char.utf8Size_eq_one_iff.mpr
  rw [UInt32.le_iff_toNat_le]
  omega

/-- Digits take one byte each. -/
theorem utf8Len_of_digits {cs : List Char} (h : ∀ c ∈ cs, c.isDigit = true) :
    String.utf8Len cs = cs.length := by
  induction cs with
  | nil => rfl
  | cons c cs ih =>
    obtain ⟨hc, hcs⟩ := List.forall_mem_cons.mp h
    rw [String.utf8Len_cons, ih hcs, utf8Size_of_isDigit hc, List.length_cons]

theorem octalPermissions_iff {permissions : String} : octalPermissions permissions = true ↔
    permissions.toList.length = 4 ∧ permissions.toList.head? = some '0' ∧
      ∀ c ∈ permissions.toList, c.isDigit = true := by
  have hsize : permissions.utf8ByteSize = String.utf8Len permissions.toList := by
    rw [← String.utf8ByteSize_ofList, String.ofList_toList]
  simp only [octalPermissions, startsWith, Bool.and_eq_true, decide_eq_true_eq, hsize,
    List.all_eq_true]
  have hzero : "0".toList = ['0'] := by decide
  rw [hzero]
  cases hlist : permissions.toList with
  | nil => simp
  | cons c cs =>
    simp only [List.cons_prefix_cons, List.nil_prefix, and_true, List.tail_cons, List.head?_cons,
      Option.some.injEq, List.forall_mem_cons]
    constructor
    · intro h
      obtain ⟨⟨hbytes, hc⟩, hdigits⟩ := h
      have hdigit : c.isDigit = true := by
        rw [← hc]
        decide
      have hlength := utf8Len_of_digits (List.forall_mem_cons.mpr ⟨hdigit, hdigits⟩)
      exact ⟨by omega, hc.symm, hdigit, hdigits⟩
    · intro h
      obtain ⟨hlength, hc, hdigits⟩ := h
      have hbytes := utf8Len_of_digits (List.forall_mem_cons.mpr hdigits)
      exact ⟨⟨by omega, hc.symm⟩, hdigits.2⟩

theorem fourOctal_iff {permissions : String} : FourOctal permissions ↔
    octalPermissions permissions = true ∧
      '8' ∉ permissions.toList ∧ '9' ∉ permissions.toList := by
  rw [octalPermissions_iff, FourOctal]
  simp only [octal_iff]
  constructor
  · intro h
    obtain ⟨hlength, hhead, hdigits⟩ := h
    refine ⟨⟨hlength, hhead, fun c hc => (hdigits c hc).1⟩, ?_, ?_⟩
    · intro hmem
      exact (hdigits _ hmem).2.1 rfl
    · intro hmem
      exact (hdigits _ hmem).2.2 rfl
  · intro h
    obtain ⟨⟨hlength, hhead, hdigits⟩, h8, h9⟩ := h
    refine ⟨hlength, hhead, ?_⟩
    intro c hc
    exact ⟨hdigits c hc, fun heq => h8 (heq ▸ hc), fun heq => h9 (heq ▸ hc)⟩

/-- The checks cover the rest of the boundary. -/
theorem boundary_iff {rx : RegexEngine} {config : AdminConfig} (h : config.Valid rx) :
    config.Boundary rx ↔ config.KeepsUnchecked := by
  constructor
  · intro hboundary
    constructor
    · intro entry hmem hname
      exact hboundary.symbols entry hmem (mem_criticalSymbols_iff.mp hname)
    · intro sock hmem
      exact (fourOctal_iff.mp (hboundary.permissions sock hmem)).2
  · intro hunchecked
    refine ⟨h.names, h.noWildcard, ?_, ?_, ?_, h.patterns, ?_, h.sockets⟩
    · intro entry hmem hname
      exact hunchecked.symbols entry hmem (mem_criticalSymbols_iff.mpr hname)
    · intro entry hmem hname
      exact (h.critical entry hmem (mem_criticalSymbols_iff.mpr hname)).1
    · intro entry hmem hname
      exact (h.critical entry hmem (mem_criticalSymbols_iff.mpr hname)).2
    · intro sock hmem
      exact fourOctal_iff.mpr ⟨h.permissions sock hmem, hunchecked.digits sock hmem⟩

end AdminConfig

open AdminConfig

/-- An accepted configuration keeps to the boundary exactly if no critical symbol is listed as
delegable and no socket has an 8 or a 9 in its permissions. -/
theorem validate_enforces_iff (rx : RegexEngine) (config : AdminConfig)
    (h : config.validate rx = .ok ()) : config.Boundary rx ↔ config.KeepsUnchecked :=
  boundary_iff (validate_eq_ok_iff.mp h)

def guardedConfig : AdminConfig :=
  { AdminConfig.empty with
    allowlist := [⟨"cargo", "/usr/bin/cargo", true, ["--version"]⟩, ⟨"git", "", true, []⟩]
    symbols := [⟨"CRIT.SECRET", "critical", "secret"⟩]
    policy := [⟨"CRIT.SECRET", "critical", 0⟩, ⟨"OPS.TERM.RUN.LOCAL", "delegable", 120⟩]
    sockets := [⟨"ui", "ui.sock", "0600"⟩, ⟨"ui_out", "ui-out.sock", "0660"⟩] }

theorem guardedConfig_boundary : guardedConfig.Boundary plainRegex.toRegexEngine := by
  have hvalid : guardedConfig.validate plainRegex.toRegexEngine = .ok () := by decide
  have hunchecked : guardedConfig.KeepsUnchecked := ⟨by decide, by decide⟩
  exact (validate_enforces_iff plainRegex.toRegexEngine guardedConfig hvalid).mpr hunchecked

/-- A critical symbol that is listed as delegable, and permissions that are not octal. -/
theorem boundary_crossed :
    let listed : AdminConfig :=
      { AdminConfig.empty with symbols := [⟨"CRIT.SECRET", "delegable", "secret"⟩] }
    let socketed : AdminConfig :=
      { AdminConfig.empty with sockets := [⟨"ui", "ui.sock", "0899"⟩] }
    (listed.validate plainRegex.toRegexEngine = .ok () ∧
        ¬listed.Boundary plainRegex.toRegexEngine) ∧
      socketed.validate plainRegex.toRegexEngine = .ok () ∧
        ¬socketed.Boundary plainRegex.toRegexEngine := by
  refine ⟨⟨by decide, ?_⟩, by decide, ?_⟩
  · intro h
    have hcritical : NamesCritical "CRIT.SECRET" := ⟨.critSecret, rfl, rfl⟩
    exact h.symbols _ List.mem_cons_self hcritical rfl
  · intro h
    have hoctal := h.permissions _ List.mem_cons_self
    have hdigit := hoctal.2.2 '9' (by decide)
    exact absurd hdigit (by decide)

end AiBridge
