import AiBridge.Decimal
import AiBridge.Keystrokes
import AiBridge.Timers

namespace AiBridge

open Attempts Text

/-- Whole seconds. -/
def Duration.asSecs (self : Duration) : Nat := self / 1000000000

def reportedReason (failureReason : String) : String :=
  if (trim failureReason).isEmpty then "SilentTimeout" else trim failureReason

def elapsedLabel (elapsed : Duration) : String :=
  if 1 ≤ elapsed.asSecs then toString elapsed.asSecs ++ "s" else "<1s"

def buildFailureStatusText (appId failureReason : String) (elapsed : Duration) : String :=
  "App: " ++ appId ++ "\nFailure: " ++ reportedReason failureReason ++
    "\nElapsed since last response: " ++ elapsedLabel elapsed ++
    "\nAction: role swapped to the remaining healthy branch and recovery initiated."

/-- The source names `inject_text_and_send` as `Self::inject_text_and_send`, which a free function does
not have. It is read as the function beside it. -/
def captureAndInjectFailureContext (portal : Portal) (allowlist : Allowlist)
    (failedAppId newMaestroAppId failureReason : String) (elapsed : Duration) :
    Attempt PortalCall PortalError PUnit :=
  injectTextAndSend portal allowlist newMaestroAppId
    (buildFailureStatusText failedAppId failureReason elapsed)

/-- The characters of a text that can be typed. -/
def typed (s : String) : List Char := s.toList.filter typeable

theorem typed_append (s t : String) : typed (s ++ t) = typed s ++ typed t := by
  rw [typed, String.toList_append, List.filter_append]
  rfl

theorem not_mem_typed {s : String} (h : '\n' ∉ s.toList) : '\n' ∉ typed s :=
  fun hmem => h (List.mem_of_mem_filter hmem)

theorem typeable_of_isDigit {c : Char} (h : c.isDigit = true) : typeable c = true := by
  simp only [Char.isDigit, Bool.and_eq_true, decide_eq_true_eq] at h
  have hlow : (48 : UInt32) ≤ c.val := h.1
  have hhigh : c.val ≤ (57 : UInt32) := h.2
  have hspace : (0x20 : UInt32) ≤ c.val := UInt32.le_trans (by decide) hlow
  have htilde : c.val ≤ (0x7E : UInt32) := UInt32.le_trans hhigh (by decide)
  simp [typeable, hspace, htilde]

theorem isDigit_of_mem_toString {n : Nat} {c : Char} (h : c ∈ (toString n).toList) :
    c.isDigit = true := by
  rw [Decimal.toList_toString] at h
  exact Nat.isDigit_of_mem_toDigits (by decide) (by decide) h

theorem typed_elapsedLabel (elapsed : Duration) :
    typed (elapsedLabel elapsed) = (elapsedLabel elapsed).toList := by
  unfold elapsedLabel
  split
  · rw [typed_append, String.toList_append]
    have hdigits : typed (toString elapsed.asSecs) = (toString elapsed.asSecs).toList := by
      apply List.filter_eq_self.mpr
      intro c hc
      exact typeable_of_isDigit (isDigit_of_mem_toString hc)
    rw [hdigits]
    rfl
  · rfl

theorem newline_not_mem_elapsedLabel (elapsed : Duration) : '\n' ∉ (elapsedLabel elapsed).toList := by
  unfold elapsedLabel
  split
  · rw [String.toList_append, List.mem_append, not_or]
    refine ⟨fun hmem => ?_, by decide⟩
    exact absurd (isDigit_of_mem_toString hmem) (by decide)
  · decide

theorem elapsedLabel_inj {first second : Duration} (h : elapsedLabel first = elapsedLabel second) :
    first.asSecs = second.asSecs := by
  have hnever : ∀ n : Nat, toString n ++ "s" ≠ "<1s" := by
    intro n heq
    have hchars : (toString n).toList ++ ['s'] = ['<', '1'] ++ ['s'] := by
      have hlist := congrArg String.toList heq
      rw [String.toList_append] at hlist
      exact hlist
    have hmem : '<' ∈ (toString n).toList := by
      rw [List.append_cancel_right hchars]
      simp
    exact absurd (isDigit_of_mem_toString hmem) (by decide)
  unfold elapsedLabel at h
  split at h
  · split at h
    · have hlist := congrArg String.toList h
      rw [String.toList_append, String.toList_append] at hlist
      exact Decimal.toString_injective (String.toList_injective (List.append_cancel_right hlist))
    · exact absurd h (hnever _)
  · split at h
    · exact absurd h.symm (hnever _)
    · omega

theorem line_inj {line line' rest rest' : List Char} (h : '\n' ∉ line) (h' : '\n' ∉ line')
    (heq : line ++ '\n' :: rest = line' ++ '\n' :: rest') : line = line' ∧ rest = rest' := by
  have hcut : cut ['\n'] (line ++ '\n' :: rest) = some (line, rest) := by
    simpa using @cut_of_fresh '\n' [] line rest h
  have hcut' : cut ['\n'] (line' ++ '\n' :: rest') = some (line', rest') := by
    simpa using @cut_of_fresh '\n' [] line' rest' h'
  rw [heq, hcut'] at hcut
  obtain ⟨hline, hrest⟩ := Prod.mk.inj (Option.some.inj hcut)
  exact ⟨hline.symm, hrest.symm⟩

theorem last_line_inj {line line' rest rest' : List Char} (h : '\n' ∉ line) (h' : '\n' ∉ line')
    (heq : rest ++ '\n' :: line = rest' ++ '\n' :: line') : line = line' := by
  have hreverse : line.reverse ++ '\n' :: rest.reverse = line'.reverse ++ '\n' :: rest'.reverse := by
    simpa using congrArg List.reverse heq
  have hfresh : '\n' ∉ line.reverse := by simpa using h
  have hfresh' : '\n' ∉ line'.reverse := by simpa using h'
  exact List.reverse_injective (line_inj hfresh hfresh' hreverse).1

/-- The report as it is shown: four lines, the last one the same in every report. -/
theorem typed_statusText (appId failureReason : String) (elapsed : Duration) :
    typed (buildFailureStatusText appId failureReason elapsed) =
      ("App: ".toList ++ typed appId) ++ '\n' ::
        (("Failure: ".toList ++ typed (reportedReason failureReason)) ++ '\n' ::
          (("Elapsed since last response: ".toList ++ (elapsedLabel elapsed).toList) ++ '\n' ::
            "Action: role swapped to the remaining healthy branch and recovery initiated.".toList)) := by
  have happ : typed "App: " = "App: ".toList := rfl
  have hfailure : typed "\nFailure: " = '\n' :: "Failure: ".toList := rfl
  have helapsed : typed "\nElapsed since last response: " =
      '\n' :: "Elapsed since last response: ".toList := rfl
  have haction :
      typed "\nAction: role swapped to the remaining healthy branch and recovery initiated." = '\n' ::
        "Action: role swapped to the remaining healthy branch and recovery initiated.".toList := rfl
  simp only [buildFailureStatusText, typed_append, happ, hfailure, helapsed, haction,
    typed_elapsedLabel, List.append_assoc, List.cons_append]

theorem newline_not_mem_field {label : String} {field : List Char} (hlabel : '\n' ∉ label.toList)
    (hfresh : '\n' ∉ field) : '\n' ∉ label.toList ++ field := by
  intro hmem
  exact (List.mem_append.mp hmem).elim hlabel hfresh

theorem newline_not_mem_elapsed (elapsed : Duration) :
    '\n' ∉ "Elapsed since last response: ".toList ++ (elapsedLabel elapsed).toList :=
  newline_not_mem_field (by decide) (newline_not_mem_elapsedLabel elapsed)

theorem typed_statusText_inj {app app' reason reason' : String} {elapsed elapsed' : Duration}
    (happ : '\n' ∉ app.toList) (happ' : '\n' ∉ app'.toList)
    (hreason : '\n' ∉ (reportedReason reason).toList)
    (hreason' : '\n' ∉ (reportedReason reason').toList)
    (h : typed (buildFailureStatusText app reason elapsed) =
      typed (buildFailureStatusText app' reason' elapsed')) :
    typed app = typed app' ∧ typed (reportedReason reason) = typed (reportedReason reason') ∧
      elapsed.asSecs = elapsed'.asSecs := by
  rw [typed_statusText, typed_statusText] at h
  obtain ⟨h₁, h⟩ := line_inj (newline_not_mem_field (by decide) (not_mem_typed happ))
    (newline_not_mem_field (by decide) (not_mem_typed happ')) h
  obtain ⟨h₂, h⟩ := line_inj (newline_not_mem_field (by decide) (not_mem_typed hreason))
    (newline_not_mem_field (by decide) (not_mem_typed hreason')) h
  obtain ⟨h₃, _⟩ := line_inj (newline_not_mem_elapsed elapsed) (newline_not_mem_elapsed elapsed') h
  exact ⟨List.append_cancel_left h₁, List.append_cancel_left h₂,
    elapsedLabel_inj (String.toList_injective (List.append_cancel_left h₃))⟩

/-- The report with its last two lines apart. -/
theorem typed_statusText_last (app reason : String) (elapsed : Duration) :
    ∃ front, typed (buildFailureStatusText app reason elapsed) =
      (front ++ '\n' :: ("Elapsed since last response: ".toList ++ (elapsedLabel elapsed).toList)) ++
        '\n' :: "Action: role swapped to the remaining healthy branch and recovery initiated.".toList := by
  refine ⟨("App: ".toList ++ typed app) ++ '\n' ::
    ("Failure: ".toList ++ typed (reportedReason reason)), ?_⟩
  rw [typed_statusText]
  simp only [List.append_assoc, List.cons_append]

/-- The seconds can be read off the end, whatever stands before it. -/
theorem asSecs_of_typed {app app' reason reason' : String} {elapsed elapsed' : Duration}
    (h : typed (buildFailureStatusText app reason elapsed) =
      typed (buildFailureStatusText app' reason' elapsed')) :
    elapsed.asSecs = elapsed'.asSecs := by
  obtain ⟨front, hfront⟩ := typed_statusText_last app reason elapsed
  obtain ⟨front', hfront'⟩ := typed_statusText_last app' reason' elapsed'
  rw [hfront, hfront'] at h
  have hline := last_line_inj (newline_not_mem_elapsed elapsed) (newline_not_mem_elapsed elapsed')
    (List.append_cancel_right h)
  exact elapsedLabel_inj (String.toList_injective (List.append_cancel_left hline))

/-- What a report is made of. -/
structure FailureContext where
  failedAppId : String
  failureReason : String
  elapsed : Duration
  deriving DecidableEq

namespace FailureContext

/-- The app and the reason are texts of one line. -/
structure OneLine (context : FailureContext) : Prop where
  app : '\n' ∉ context.failedAppId.toList
  reason : '\n' ∉ (trim context.failureReason).toList

theorem OneLine.reported {context : FailureContext} (h : context.OneLine) :
    '\n' ∉ (reportedReason context.failureReason).toList := by
  unfold reportedReason
  split
  · decide
  · exact h.reason

variable (self : FailureContext)

def text : String := buildFailureStatusText self.failedAppId self.failureReason self.elapsed

/-- What a reader of the report can tell about the failure. -/
def facts : List Char × List Char × Nat :=
  (typed self.failedAppId, typed (reportedReason self.failureReason), self.elapsed.asSecs)

theorem typed_text_of_facts {other : FailureContext} (h : self.facts = other.facts) :
    typed self.text = typed other.text := by
  obtain ⟨happ, h⟩ := Prod.mk.inj h
  obtain ⟨hreason, hsecs⟩ := Prod.mk.inj h
  have hlabel : elapsedLabel self.elapsed = elapsedLabel other.elapsed := by
    rw [elapsedLabel, elapsedLabel, hsecs]
  show typed (buildFailureStatusText _ _ _) = typed (buildFailureStatusText _ _ _)
  rw [typed_statusText, typed_statusText, happ, hreason, hlabel]

theorem typed_text_iff {other : FailureContext} (hline : self.OneLine) (hline' : other.OneLine) :
    typed self.text = typed other.text ↔ self.facts = other.facts := by
  constructor
  · intro h
    obtain ⟨happ, hreason, hsecs⟩ := typed_statusText_inj hline.app hline'.app
      hline.reported hline'.reported h
    rw [facts, facts, happ, hreason, hsecs]
  · exact self.typed_text_of_facts

end FailureContext

/-- What the window of the new Maestro shows after the report was sent. -/
def reportShown (portal : Portal) (past : List PortalCall) (allowlist : Allowlist)
    (newMaestroAppId : String) (context : FailureContext) : List Char :=
  let out := captureAndInjectFailureContext portal allowlist context.failedAppId newMaestroAppId
    context.failureReason context.elapsed past
  (Keyboard.after (out.2.drop past.length)).shown

def ReportSent (portal : Portal) (past : List PortalCall) (allowlist : Allowlist)
    (newMaestroAppId : String) (context : FailureContext) : Prop :=
  (captureAndInjectFailureContext portal allowlist context.failedAppId newMaestroAppId
    context.failureReason context.elapsed past).1 = .ok ⟨⟩

theorem shown_of_sent {portal : Portal} {past : List PortalCall} {allowlist : Allowlist}
    {newMaestroAppId : String} {context : FailureContext}
    (h : ReportSent portal past allowlist newMaestroAppId context) :
    reportShown portal past allowlist newMaestroAppId context = typed context.text := by
  have hsent : (injectTextAndSend portal allowlist newMaestroAppId context.text past).1 = .ok ⟨⟩ := h
  have hallowed : authorizeInjection allowlist newMaestroAppId = .ok () := by
    cases hauth : authorizeInjection allowlist newMaestroAppId with
    | ok _ => rfl
    | error error =>
      rw [injectTextAndSend_denied _ _ _ hauth] at hsent
      exact nomatch hsent
  rcases injectTextAndSend_plays context.text hallowed with
    ⟨session, hcreated, made, hmade, hplayed⟩ | ⟨hnone, made, hmade, hplayed⟩
  · have hcalls : (captureAndInjectFailureContext portal allowlist context.failedAppId newMaestroAppId
        context.failureReason context.elapsed past).2 = past ++ made := hmade
    rw [hsent] at hplayed
    rw [reportShown, hcalls, List.drop_left, hplayed.made_of_ok, after_injectionCalls]
    exact spelled_keysOf context.text
  · have hanswered := answered_mapError.mp (hplayed.ok_iff.mp ⟨_, hsent⟩)
    obtain ⟨session, hcreated⟩ := created_of_answered hanswered
    exact absurd hcreated (hnone session)

/-- The windows that two reports were typed into show the same text if the failures agree in the app,
the reason and the seconds, as far as these can be typed. Where the same text is shown, the seconds
agree, and where apps and reasons are texts of one line, so do all three. -/
theorem reports_shown_alike_iff {portal portal' : Portal} {past past' : List PortalCall}
    {allowlist allowlist' : Allowlist} {maestro maestro' : String} {context context' : FailureContext}
    (hsent : ReportSent portal past allowlist maestro context)
    (hsent' : ReportSent portal' past' allowlist' maestro' context') :
    (context.facts = context'.facts →
      reportShown portal past allowlist maestro context =
        reportShown portal' past' allowlist' maestro' context') ∧
    (reportShown portal past allowlist maestro context =
        reportShown portal' past' allowlist' maestro' context' →
      context.elapsed.asSecs = context'.elapsed.asSecs) ∧
    (context.OneLine → context'.OneLine →
      (reportShown portal past allowlist maestro context =
          reportShown portal' past' allowlist' maestro' context' ↔
        context.facts = context'.facts)) := by
  rw [shown_of_sent hsent, shown_of_sent hsent']
  refine ⟨context.typed_text_of_facts, asSecs_of_typed, ?_⟩
  intro hline hline'
  exact context.typed_text_iff hline hline'

/-- A blank reason and a fraction of a second are not told apart from these. -/
def silentContext : FailureContext := ⟨"a", " ", Duration.fromSecs 2⟩

def namedContext : FailureContext := ⟨"a", "SilentTimeout", Duration.fromSecs 2 + 5⟩

def blamedContext : FailureContext := ⟨"a", "Crash", Duration.fromSecs 2⟩

theorem willing_answers (past calls : List PortalCall) : Answered willingPortal past calls := by
  intro front call back _
  cases call <;> exact ⟨_, rfl⟩

theorem terminal_allowed : authorizeInjection terminalOnly "org.gnome.Terminal" = .ok () := by decide

theorem sent_to_terminal (past : List PortalCall) (context : FailureContext) :
    ReportSent willingPortal past terminalOnly "org.gnome.Terminal" context := by
  have hanswers : ∀ calls, Answered willingPortal.dbus past calls :=
    fun calls => answered_mapError.mpr (willing_answers past calls)
  rcases injectTextAndSend_plays context.text terminal_allowed with
    ⟨session, _, made, _, hplayed⟩ | ⟨_, made, _, hplayed⟩
  · obtain ⟨⟨⟩, hok⟩ := hplayed.ok_iff.mpr (hanswers _)
    exact hok
  · obtain ⟨⟨⟩, hok⟩ := hplayed.ok_iff.mpr (hanswers _)
    exact hok

theorem reports_shown_alike_silent :
    reportShown willingPortal [] terminalOnly "org.gnome.Terminal" silentContext =
        reportShown willingPortal [.new, .createSession] terminalOnly "org.gnome.Terminal"
          namedContext ∧
      reportShown willingPortal [] terminalOnly "org.gnome.Terminal" silentContext ≠
        reportShown willingPortal [.new, .createSession] terminalOnly "org.gnome.Terminal"
          blamedContext := by
  constructor
  · exact (reports_shown_alike_iff (sent_to_terminal [] silentContext)
      (sent_to_terminal [.new, .createSession] namedContext)).1 (by decide)
  · intro hsame
    have hfacts := ((reports_shown_alike_iff (sent_to_terminal [] silentContext)
      (sent_to_terminal [.new, .createSession] blamedContext)).2.2 ⟨by decide, by decide⟩
        ⟨by decide, by decide⟩).mp hsame
    exact absurd hfacts (by decide)

end AiBridge
