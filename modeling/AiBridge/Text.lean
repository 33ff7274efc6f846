import Mathlib.Data.List.DropRight
import Mathlib.Data.List.Infix
import Mathlib.Tactic.Common

namespace Text

/-- The Unicode `White_Space` property. -/
def isWhitespace (c : Char) : Bool :=
  let n := c.toNat
  (9 ≤ n && n ≤ 13) || n == 0x20 || n == 0x85 || n == 0xA0 || n == 0x1680 ||
    (0x2000 ≤ n && n ≤ 0x200A) || n == 0x2028 || n == 0x2029 || n == 0x202F || n == 0x205F ||
    n == 0x3000

def trimChars (cs : List Char) : List Char :=
  (cs.dropWhile isWhitespace).rdropWhile isWhitespace

def trim (s : String) : String := String.ofList (trimChars s.toList)

def trimStart (s : String) : String := String.ofList (s.toList.dropWhile isWhitespace)

def trimEnd (s : String) : String := String.ofList (s.toList.rdropWhile isWhitespace)

def startsWith (s p : String) : Bool := decide (p.toList <+: s.toList)

def contains (s p : String) : Bool := decide (p.toList <:+: s.toList)

def stripPrefix (s p : String) : Option String :=
  if p.toList <+: s.toList then some (String.ofList (s.toList.drop p.toList.length)) else none

/-- What stands before and after the first occurrence of a separator. -/
def cut (sep : List Char) : List Char → Option (List Char × List Char)
  | [] => if sep = [] then some ([], []) else none
  | c :: cs =>
    if sep <+: c :: cs then some ([], (c :: cs).drop sep.length)
    else (cut sep cs).map fun parts => (c :: parts.1, parts.2)

def splitOnce (s sep : String) : Option (String × String) :=
  (cut sep.toList s.toList).map fun parts => (String.ofList parts.1, String.ofList parts.2)

def toAsciiLowercase (s : String) : String := String.ofList (s.toList.map Char.toLower)

/-- `str::lines`: a line ends at a newline, with the carriage return before it, or at the end. -/
def lineChars : List Char → List (List Char)
  | [] => []
  | c :: cs =>
    if c = '\n' then [] :: lineChars cs
    else if c = '\r' ∧ cs.head? = some '\n' then lineChars cs
    else
      match lineChars cs with
      | [] => [[c]]
      | line :: rest => (c :: line) :: rest

def lines (s : String) : List String := (lineChars s.toList).map String.ofList

theorem head_trimChars {cs : List Char} {c : Char} (h : (trimChars cs).head? = some c) :
    isWhitespace c = false := by
  obtain ⟨rest, hrest⟩ : trimChars cs <+: cs.dropWhile isWhitespace :=
    List.rdropWhile_prefix isWhitespace _
  obtain ⟨tail, htail⟩ := List.head?_eq_some_iff.mp h
  have hdrop : cs.dropWhile isWhitespace = c :: (tail ++ rest) := by
    rw [← hrest, htail]
    rfl
  have hlen : 0 < (cs.dropWhile isWhitespace).length := by simp [hdrop]
  simpa [hdrop] using List.dropWhile_get_zero_not isWhitespace cs hlen

theorem getLast_trimChars {cs : List Char} {c : Char} (h : (trimChars cs).getLast? = some c) :
    isWhitespace c = false := by
  have hne : trimChars cs ≠ [] := by
    intro he
    simp [he] at h
  have hlast := List.rdropWhile_last_not isWhitespace (cs.dropWhile isWhitespace) hne
  rw [List.getLast?_eq_some_getLast hne, Option.some.injEq] at h
  simpa [← h, trimChars] using hlast

/-- Text whose two ends are no blanks is already trimmed. -/
theorem trimChars_of_ends {cs : List Char} (hhead : ∀ c, cs.head? = some c → isWhitespace c = false)
    (hlast : ∀ c, cs.getLast? = some c → isWhitespace c = false) : trimChars cs = cs := by
  have hdrop : cs.dropWhile isWhitespace = cs := by
    apply List.dropWhile_eq_self_iff.mpr
    intro hl
    simp [hhead cs[0] (by simp [List.head?_eq_getElem?, hl])]
  rw [trimChars, hdrop]
  apply List.rdropWhile_eq_self_iff.mpr
  intro hne
  simp [hlast (cs.getLast hne) (List.getLast?_eq_some_getLast hne)]

theorem trimChars_idem (cs : List Char) : trimChars (trimChars cs) = trimChars cs :=
  trimChars_of_ends (fun _ => head_trimChars) (fun _ => getLast_trimChars)

theorem trimChars_cons_blank {c : Char} (hc : isWhitespace c = true) (cs : List Char) :
    trimChars (c :: cs) = trimChars cs := by
  simp [trimChars, hc]

theorem trim_idem (s : String) : trim (trim s) = trim s := by
  simp [trim, trimChars_idem]

theorem trim_eq_empty_iff {s : String} : trim s = "" ↔ ∀ c ∈ s.toList, isWhitespace c = true := by
  have hchars : trim s = "" ↔ trimChars s.toList = [] := by simp [trim]
  rw [hchars, trimChars, List.rdropWhile_eq_nil_iff]
  constructor
  · intro h c hc
    by_contra hblank
    have hne : s.toList.dropWhile isWhitespace ≠ [] := by
      rw [ne_eq, List.dropWhile_eq_nil_iff]
      exact fun hall => hblank (hall c hc)
    have hhead := List.head_dropWhile_not isWhitespace hne
    rw [h _ (List.head_mem hne)] at hhead
    exact absurd hhead (by decide)
  · intro h c hc
    exact h c (List.dropWhile_sublist isWhitespace |>.mem hc)

/-- Trimming at the end stops at text whose last character is no blank. -/
theorem rdropWhile_append {cs ds : List Char}
    (hlast : ∀ c, cs.getLast? = some c → isWhitespace c = false) :
    (cs ++ ds).rdropWhile isWhitespace = cs ++ ds.rdropWhile isWhitespace := by
  induction ds using List.reverseRecOn with
  | nil =>
    rw [List.append_nil, List.rdropWhile_nil, List.append_nil]
    apply List.rdropWhile_eq_self_iff.mpr
    intro hne
    simp [hlast (cs.getLast hne) (List.getLast?_eq_some_getLast hne)]
  | append_singleton ds d ih =>
    rw [← List.append_assoc]
    cases hd : isWhitespace d with
    | true =>
      rw [List.rdropWhile_concat_pos _ _ _ hd, List.rdropWhile_concat_pos _ _ _ hd]
      exact ih
    | false =>
      have hd' : ¬isWhitespace d = true := by simp [hd]
      rw [List.rdropWhile_concat_neg _ _ _ hd', List.rdropWhile_concat_neg _ _ _ hd',
        List.append_assoc]

/-- Text that is added behind does not change what trimming leaves of the text before it. -/
theorem trimChars_append (cs ds : List Char) :
    ∃ tail, trimChars (cs ++ ds) = trimChars cs ++ tail := by
  by_cases hblank : cs.dropWhile isWhitespace = []
  · have hnil : trimChars cs = [] := by rw [trimChars, hblank, List.rdropWhile_nil]
    exact ⟨trimChars (cs ++ ds), by rw [hnil, List.nil_append]⟩
  · have hsplit : cs.dropWhile isWhitespace =
        trimChars cs ++ (cs.dropWhile isWhitespace).rtakeWhile isWhitespace := by
      rw [trimChars, List.rdropWhile_append_rtakeWhile]
    have hdrop : (cs ++ ds).dropWhile isWhitespace = cs.dropWhile isWhitespace ++ ds := by
      rw [List.dropWhile_append, if_neg (by simpa using hblank)]
    refine ⟨((cs.dropWhile isWhitespace).rtakeWhile isWhitespace ++ ds).rdropWhile isWhitespace, ?_⟩
    rw [trimChars, hdrop]
    nth_rewrite 1 [hsplit]
    rw [List.append_assoc]
    exact rdropWhile_append fun _ => getLast_trimChars

theorem trim_append (s t : String) : ∃ tail, trim (s ++ t) = trim s ++ tail := by
  obtain ⟨tail, htail⟩ := trimChars_append s.toList t.toList
  refine ⟨String.ofList tail, ?_⟩
  rw [trim, trim, String.toList_append, htail, String.ofList_append]

theorem toAsciiLowercase_append (s t : String) :
    toAsciiLowercase (s ++ t) = toAsciiLowercase s ++ toAsciiLowercase t := by
  rw [toAsciiLowercase, String.toList_append, List.map_append, String.ofList_append]
  rfl

theorem contains_append {s p : String} (h : contains s p = true) (t : String) :
    contains (s ++ t) p = true := by
  rw [contains, decide_eq_true_eq] at h ⊢
  rw [String.toList_append]
  exact h.trans (List.prefix_append _ _).isInfix

theorem prefix_of_stripPrefix {s p rest : String} (h : stripPrefix s p = some rest) :
    p.toList <+: s.toList := by
  unfold stripPrefix at h
  split at h
  next hp => exact hp
  next => simp at h

theorem stripPrefix_append (p : String) (cs : List Char) :
    stripPrefix (String.ofList (p.toList ++ cs)) p = some (String.ofList cs) := by
  simp [stripPrefix]

/-- A separator is found where it stands when its first character is not met before. -/
theorem cut_of_fresh {x : Char} {xs before after : List Char} (h : x ∉ before) :
    cut (x :: xs) (before ++ (x :: xs) ++ after) = some (before, after) := by
  induction before with
  | nil => simp [cut]
  | cons c before ih =>
    have hne : x ≠ c := fun he => h (by simp [he])
    have hrest := ih (fun hmem => h (List.mem_cons_of_mem c hmem))
    rw [List.cons_append, List.cons_append, cut, if_neg (by simp [List.cons_prefix_cons, hne]),
      hrest]
    rfl

theorem stripPrefix_eq_some_iff {s p rest : String} :
    stripPrefix s p = some rest ↔ s = p ++ rest := by
  constructor
  · intro h
    obtain ⟨tail, htail⟩ := prefix_of_stripPrefix h
    rw [← String.ofList_toList (s := s), ← htail, stripPrefix_append, Option.some.injEq] at h
    rw [← String.ofList_toList (s := s), ← htail, String.ofList_append, String.ofList_toList, h]
  · intro h
    have hlist : s = String.ofList (p.toList ++ rest.toList) := by
      rw [h, String.ofList_append, String.ofList_toList, String.ofList_toList]
    rw [hlist, stripPrefix_append, String.ofList_toList]

/-- The separator is cut out where it first occurs. -/
theorem cut_eq_some_iff {sep cs before after : List Char} (hsep : sep ≠ []) :
    cut sep cs = some (before, after) ↔
      cs = before ++ sep ++ after ∧
        ∀ before' after', cs = before' ++ sep ++ after' → before.length ≤ before'.length := by
  induction cs generalizing before with
  | nil =>
    rw [cut, if_neg hsep]
    simp [hsep]
  | cons c cs ih =>
    rw [cut]
    by_cases hp : sep <+: c :: cs
    · obtain ⟨tail, htail⟩ := hp
      rw [if_pos ⟨tail, htail⟩, ← htail, List.drop_left, Option.some.injEq, Prod.mk.injEq]
      constructor
      · intro h
        rw [← h.1, ← h.2]
        exact ⟨rfl, fun _ _ _ => Nat.zero_le _⟩
      · intro h
        have hnil : before = [] := List.eq_nil_of_length_eq_zero (Nat.le_zero.mp (h.2 [] tail rfl))
        have htails := h.1
        rw [hnil] at htails
        exact ⟨hnil.symm, List.append_cancel_left htails⟩
    · rw [if_neg hp, Option.map_eq_some_iff]
      constructor
      · intro h
        obtain ⟨parts, hcut, hparts⟩ := h
        rw [Prod.mk.injEq] at hparts
        rw [← hparts.1]
        have hcut' : cut sep cs = some (parts.1, after) := by rw [hcut, ← hparts.2]
        obtain ⟨hcs, hfirst⟩ := ih.mp hcut'
        refine ⟨by rw [hcs]; rfl, ?_⟩
        intro before' after' heq
        cases before' with
        | nil => exact absurd ⟨after', heq.symm⟩ hp
        | cons c' before' =>
          have htail : cs = before' ++ sep ++ after' := (List.cons.inj heq).2
          exact Nat.succ_le_succ (hfirst before' after' htail)
      · intro h
        cases before with
        | nil => exact absurd ⟨after, h.1.symm⟩ hp
        | cons c' before =>
          obtain ⟨hc, hcs⟩ := List.cons.inj h.1
          refine ⟨(before, after), ih.mpr ⟨hcs, ?_⟩, by rw [hc]⟩
          intro before' after' heq
          have hlen := h.2 (c :: before') after' (by rw [heq]; rfl)
          exact Nat.le_of_succ_le_succ hlen

theorem splitOnce_eq_some_iff {s sep before after : String} (hsep : sep ≠ "") :
    splitOnce s sep = some (before, after) ↔
      s = before ++ sep ++ after ∧
        ∀ before' after', s = before' ++ sep ++ after' → before.length ≤ before'.length := by
  have hne : sep.toList ≠ [] := by simpa using hsep
  have hsplit : splitOnce s sep = some (before, after) ↔
      cut sep.toList s.toList = some (before.toList, after.toList) := by
    rw [splitOnce, Option.map_eq_some_iff]
    constructor
    · intro h
      obtain ⟨parts, hcut, hparts⟩ := h
      rw [Prod.mk.injEq] at hparts
      rw [hcut, ← hparts.1, ← hparts.2, String.toList_ofList, String.toList_ofList]
    · intro h
      exact ⟨_, h, by rw [String.ofList_toList, String.ofList_toList]⟩
  have hspell : ∀ a b : String, s = a ++ sep ++ b ↔ s.toList = a.toList ++ sep.toList ++ b.toList := by
    intro a b
    rw [← String.toList_inj, String.toList_append, String.toList_append]
  rw [hsplit, cut_eq_some_iff hne, hspell]
  apply and_congr_right
  intro _
  constructor
  · intro h before' after' heq
    have hlen := h before'.toList after'.toList ((hspell before' after').mp heq)
    simpa only [String.length_toList] using hlen
  · intro h before' after' heq
    have hlen := h (String.ofList before') (String.ofList after') (by
      rw [hspell, String.toList_ofList, String.toList_ofList, heq])
    simpa only [String.length_toList, String.length_ofList] using hlen

theorem mem_intercalate {c : Char} {sep word : List Char} {words : List (List Char)}
    (hword : word ∈ words) (hc : c ∈ word) : c ∈ sep.intercalate words := by
  induction words with
  | nil => exact absurd hword List.not_mem_nil
  | cons first rest ih =>
    cases rest with
    | nil =>
      rw [List.mem_singleton] at hword
      rw [List.intercalate_singleton, ← hword]
      exact hc
    | cons second rest =>
      rw [List.intercalate_cons_cons, List.append_assoc, List.mem_append, List.mem_append]
      rcases List.mem_cons.mp hword with heq | hrest
      · exact Or.inl (heq ▸ hc)
      · exact Or.inr (Or.inr (ih hrest))

end Text
