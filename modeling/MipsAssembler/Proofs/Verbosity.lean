import Mathlib
import MipsAssembler.Proofs.ExitCodes
import MipsAssembler.Proofs.TraceAccount

/-!
# What the verbose switch changes

The work of a run is traced whether or not somebody wants to see it.  The verbose switch decides
what becomes of the trace, and this file says that it decides nothing else.

* Commands that differ only in the switch give the same outcome but for the log, and the same
  files afterwards.  A run that is not verbose is the verbose one with its log taken away, and
  this is true step by step, in any monad that files are reached in
  (`Command.perform_withVerbose_false`).
* Putting the switch in front of the arguments makes the command verbose and changes nothing
  else about it (`understand_verbose_cons`).  The square commutes at every step of going through
  the arguments, since a later argument can only set the switch again.
* The log of a verbose run is the trace of the assembly, followed by the record of the file if
  one was written.  Which events the trace has is the subject of `TraceAccount`.
-/

namespace MipsAssembler
namespace CommandLine

/-- The settings with the trace shown or not. -/
def Settings.withVerbose (s : Settings) (verbose : Bool) : Settings :=
  { s with verbose := verbose }

/-- The draft with the trace shown or not. -/
def Draft.withVerbose (d : Draft) (verbose : Bool) : Draft := { d with verbose := verbose }

/-- What is seen of a run besides its log. -/
def Outcome.withoutLog (o : Outcome) : Outcome := { o with log := [] }

theorem Outcome.ending_withoutLog (o : Outcome) : o.withoutLog.ending = o.ending := rfl

namespace Command

/-- The settings of a command. -/
def settings : Command → Settings
  | run s => s
  | runUnnamed s => s

/-- The file that a command names for its output. -/
def output : Command → Option String
  | run s => s.output
  | runUnnamed _ => none

/-- The command with the trace shown or not. -/
def withVerbose (verbose : Bool) : Command → Command
  | run s => run (s.withVerbose verbose)
  | runUnnamed s => runUnnamed (s.withVerbose verbose)

/-- The run of a command. -/
def perform {m : Type → Type} [Monad m] (access : FileAccess m) : Command → m Outcome
  | run s => execute access s
  | runUnnamed s => executeUnnamed access s

theorem withVerbose_self (c : Command) : c.withVerbose c.settings.verbose = c := by
  cases c <;> rfl

theorem withVerbose_withVerbose (c : Command) (earlier later : Bool) :
    (c.withVerbose earlier).withVerbose later = c.withVerbose later := by
  cases c <;> rfl

end Command

/-! ## Running without showing the trace -/

section Perform

variable {m : Type → Type} [Monad m] (access : FileAccess m)

theorem runWith_of_ok {argv : List String} {c : Command} (h : understand argv = .ok c) :
    runWith access argv = c.perform access := by
  rw [runWith, h]
  cases c <;> rfl

theorem runWith_of_error {argv argv' : List String} {stop : Stop}
    (h : understand argv = .error stop) (h' : understand argv' = .error stop) :
    runWith access argv = runWith access argv' := by
  rw [runWith, runWith, h, h']

variable [LawfulMonad m]

theorem deliver_withVerbose_false (s : Settings) (words : List Word) (trace : List Trace.Event) :
    deliver access (s.withVerbose false) words trace =
      Outcome.withoutLog <$> deliver access s words trace := by
  obtain ⟨source, output, format, verbose⟩ := s
  cases output with
  | none =>
    simp only [deliver, Settings.withVerbose, map_pure]
    rfl
  | some path =>
    cases hnull : hasNull path with
    | true =>
      simp only [deliver, Settings.withVerbose, hnull, if_true, map_pure]
      rfl
    | false =>
      simp only [deliver, Settings.withVerbose, hnull, Bool.false_eq_true, if_false, map_bind]
      refine bind_congr fun written => ?_
      cases written <;> simp only [map_pure] <;> rfl

theorem executeOn_withVerbose_false (s : Settings) (bytes : ByteArray) :
    executeOn access (s.withVerbose false) bytes =
      Outcome.withoutLog <$> executeOn access s bytes := by
  rw [executeOn, executeOn]
  cases decodeSource bytes with
  | none =>
    simp only [map_pure]
    rfl
  | some text =>
    dsimp only
    cases (assembleTraced text).result with
    | error fault =>
      simp only [map_pure]
      rfl
    | ok words => exact deliver_withVerbose_false access s words _

theorem execute_withVerbose_false (s : Settings) :
    execute access (s.withVerbose false) = Outcome.withoutLog <$> execute access s := by
  have hsource : (s.withVerbose false).source = s.source := rfl
  rw [execute, execute, hsource]
  by_cases hnull : hasNull s.source = true
  · rw [if_pos hnull, if_pos hnull, map_pure]
    rfl
  · rw [if_neg hnull, if_neg hnull, map_bind]
    refine bind_congr fun opened => ?_
    cases opened with
    | error e =>
      simp only [map_pure]
      rfl
    | ok bytes => exact executeOn_withVerbose_false access s bytes

theorem executeUnnamed_withVerbose_false (s : Settings) :
    executeUnnamed access (s.withVerbose false) =
      Outcome.withoutLog <$> executeUnnamed access s := by
  have hprinted : execute access { s.withVerbose false with output := none } =
      Outcome.withoutLog <$> execute access { s with output := none } :=
    execute_withVerbose_false access { s with output := none }
  rw [executeUnnamed, hprinted, bind_map_left, executeUnnamed, map_bind]
  refine bind_congr fun outcome => ?_
  rw [outcome.ending_withoutLog]
  by_cases hexit : outcome.ending = .exit 0
  · rw [if_pos hexit, if_pos hexit, map_pure]
    rfl
  · rw [if_neg hexit, if_neg hexit, map_pure]

/-- A run whose output has no name logs what a run that prints logs. -/
theorem log_executeUnnamed (s : Settings) :
    Outcome.log <$> executeUnnamed access s =
      Outcome.log <$> execute access { s with output := none } := by
  rw [executeUnnamed, map_bind, map_eq_pure_bind]
  refine bind_congr fun outcome => ?_
  by_cases hexit : outcome.ending = .exit 0
  · rw [if_pos hexit, map_pure]
  · rw [if_neg hexit, map_pure]

/-- A run that does not show the trace is the run that does, without its log. -/
theorem Command.perform_withVerbose_false (c : Command) :
    (c.withVerbose false).perform access = Outcome.withoutLog <$> c.perform access := by
  cases c with
  | run s => exact execute_withVerbose_false access s
  | runUnnamed s => exact executeUnnamed_withVerbose_false access s

/-- Command lines that ask for the same up to the trace have the same runs up to the log. -/
theorem withoutLog_runWith {argv argv' : List String}
    (h : Command.withVerbose false <$> understand argv =
      Command.withVerbose false <$> understand argv') :
    Outcome.withoutLog <$> runWith access argv = Outcome.withoutLog <$> runWith access argv' := by
  rcases Outcome.ok_or_error (understand argv) with ⟨c, hc⟩ | ⟨stop, hstop⟩
  · rw [hc] at h
    obtain ⟨c', hc', hsame⟩ := Outcome.map_eq_ok_iff.mp h.symm
    rw [runWith_of_ok access hc, runWith_of_ok access hc', ← c.perform_withVerbose_false,
      ← c'.perform_withVerbose_false, hsame]
  · rw [hstop] at h
    have hstop' := Outcome.map_eq_error_iff.mp h.symm
    rw [runWith_of_error access hstop hstop']

end Perform

/-! ## The switch in front of the arguments -/

namespace Draft

theorem apply_withVerbose_true (d : Draft) (use : Switch × String) :
    (d.withVerbose true).apply use = (withVerbose · true) <$> d.apply use := by
  obtain ⟨switch, value⟩ := use
  cases switch with
  | format =>
    simp only [apply]
    cases formatOfValue? value <;> rfl
  | _ => rfl

theorem foldlM_apply_withVerbose_true (d : Draft) (uses : List (Switch × String)) :
    uses.foldlM apply (d.withVerbose true) = (withVerbose · true) <$> uses.foldlM apply d := by
  induction uses generalizing d with
  | nil => rfl
  | cons use uses ih =>
    rw [List.foldlM_cons, List.foldlM_cons, apply_withVerbose_true]
    cases d.apply use with
    | error stop => rfl
    | ok d' => exact ih d'

/-- Whatever the arguments are, the switch stays set and is not looked at. -/
theorem advance_withVerbose_true (d : Draft) (arguments : List Argument) :
    (d.withVerbose true).advance arguments = (withVerbose · true) <$> d.advance arguments := by
  fun_induction Draft.advance d arguments with
  | case1 d =>
    rw [advance]
    rfl
  | case2 d text rest ih =>
    rw [advance]
    exact ih
  | case3 d text rest source hsource ih =>
    have hsource' : (d.withVerbose true).source = some source := hsource
    rw [advance, hsource']
    exact ih
  | case4 d text rest hsource ih =>
    have hsource' : (d.withVerbose true).source = none := hsource
    rw [advance, hsource']
    exact ih
  | case5 d rest hcond ih =>
    rw [advance]
    exact (if_pos hcond).trans ih
  | case6 d rest hcond ih =>
    rw [advance]
    exact (if_neg hcond).trans ih
  | case7 d u rest e hexpand =>
    rw [advance, hexpand]
    rfl
  | case8 d u rest expansion hexpand stop hstop =>
    rw [advance, hexpand]
    dsimp only
    rw [foldlM_apply_withVerbose_true, hstop]
    rfl
  | case9 d u rest expansion hexpand d' hd' ih =>
    rw [advance, hexpand]
    dsimp only
    rw [foldlM_apply_withVerbose_true, hd']
    exact ih

theorem advance_verbose_cons (d : Draft) (short : Bool) (arguments : List Argument) :
    d.advance (.use ⟨.verbose, short, none⟩ :: arguments) =
      (d.withVerbose true).advance arguments := by
  rw [advance]
  rfl

theorem finish_withVerbose_true (d : Draft) :
    (d.withVerbose true).finish = Command.withVerbose true <$> d.finish := by
  obtain ⟨source, output, format, verbose, strays⟩ := d
  cases source with
  | none => rfl
  | some source =>
    cases strays with
    | nil => cases output <;> rfl
    | cons text strays => rfl

end Draft

theorem classify_verbose {flag : String} (h : flag ∈ ["-v", "--verbose"]) :
    flag ≠ "--" ∧ ∃ short, classify flag = .ok (.use ⟨.verbose, short, none⟩) := by
  rw [List.mem_cons, List.mem_singleton] at h
  rcases h with rfl | rfl
  · exact ⟨by decide, true, Outcome.eq_ok_of_toOption (by decide +kernel)⟩
  · exact ⟨by decide, false, Outcome.eq_ok_of_toOption (by decide +kernel)⟩

/-- The switch in front of the arguments makes the command verbose and changes nothing else. -/
theorem understand_verbose_cons {flag : String} (h : flag ∈ ["-v", "--verbose"])
    (argv : List String) :
    understand (flag :: argv) = Command.withVerbose true <$> understand argv := by
  obtain ⟨hflag, short, hclassify⟩ := classify_verbose h
  rw [understand, classifyAll, if_neg hflag, hclassify, Outcome.ok_bind, understand]
  cases classifyAll argv with
  | error e => rfl
  | ok arguments =>
    change (Draft.initial.advance (.use ⟨.verbose, short, none⟩ :: arguments) >>= Draft.finish) =
      Command.withVerbose true <$> (Draft.initial.advance arguments >>= Draft.finish)
    rw [Draft.advance_verbose_cons, Draft.advance_withVerbose_true]
    cases Draft.initial.advance arguments with
    | error stop => rfl
    | ok d => exact d.finish_withVerbose_true

/-! ## The log -/

/-- The record at the end of a log: that of the file, if one was written. -/
inductive Receipt (c : Command) (text : String) (ending : Ending) : List Trace.Event → Prop
  | written {words : List Word} {path : String} (hwords : assemble text = .ok words)
      (houtput : c.output = some path) (hending : ending = .exit 0) :
      Receipt c text ending [.written words.length path]
  | nothing (h : c.output = none ∨ ending ≠ .exit 0) : Receipt c text ending []

/-- What the log of a run has to be: nothing if the trace is not asked for, or if there is no
text to assemble, and otherwise the trace of the assembly with the receipt. -/
structure LogContract (fs : FileSystem) (argv : List String) (o : Outcome) : Prop where
  quiet : (∀ c, understand argv = .ok c → c.settings.verbose = false) → o.log = []
  untold : ∀ c, understand argv = .ok c →
    (∀ text, ¬ SourceText fs c.settings.source text) → o.log = []
  shown : ∀ c text, understand argv = .ok c → c.settings.verbose = true →
    SourceText fs c.settings.source text →
      ∃ receipt, Receipt c text o.ending receipt ∧ o.log = (assembleTraced text).trace ++ receipt

section Log

variable {fs : FileSystem} {s : Settings} {text : String}

theorem Settings.visible_of_verbose (h : s.verbose = true) (trace : List Trace.Event) :
    s.visible trace = trace := if_pos h

/-- Where there is no text, nothing is assembled and nothing is traced. -/
theorem log_performOn_of_no_text (h : ∀ text, ¬ SourceText fs s.source text) :
    (s.performOn fs).1.log = [] := by
  cases hnull : hasNull s.source with
  | true =>
    rw [performOn_of_null hnull]
  | false =>
    rw [performOn_of_not_null hnull]
    cases hread : fs.read s.source with
    | error e => rfl
    | ok bytes =>
      have hinvalid : ¬ bytes.IsValidUTF8 := fun hvalid =>
        h _ ⟨hnull, String.fromUTF8 bytes hvalid, hread, rfl⟩
      have hdecode : decodeSource bytes = none := by
        rw [decodeSource, String.fromUTF8?, dif_neg hinvalid, Option.map_none]
      dsimp only
      rw [executeOn, hdecode]
      rfl

/-- A run that delivers words to a file records the file if all went well. -/
theorem log_deliver_of_output (hverbose : s.verbose = true) {words : List Word} {path : String}
    (hwords : assemble text = .ok words) (houtput : s.output = some path)
    (trace : List Trace.Event) :
    ∃ receipt,
      Receipt (.run s) text ((deliver modelAccess s words trace).run fs).1.ending receipt ∧
        ((deliver modelAccess s words trace).run fs).1.log = trace ++ receipt := by
  cases hnull : hasNull path with
  | true =>
    rw [deliver_null _ _ houtput hnull, s.visible_of_verbose hverbose]
    refine ⟨[], .nothing (Or.inr fun hending => ?_), (List.append_nil _).symm⟩
    cases hending
  | false =>
    rw [deliver_of_output _ _ houtput hnull]
    obtain ⟨result, after⟩ := fs.write path (s.fileBytes words)
    cases result with
    | ok _ =>
      dsimp only
      rw [s.visible_of_verbose hverbose]
      exact ⟨_, .written hwords houtput rfl, rfl⟩
    | error e =>
      dsimp only
      rw [s.visible_of_verbose hverbose]
      refine ⟨[], .nothing (Or.inr ?_), (List.append_nil _).symm⟩
      exact Outcome.ending_exit_ne (by decide)

theorem log_performOn_of_text (hverbose : s.verbose = true) (htext : SourceText fs s.source text) :
    ∃ receipt, Receipt (.run s) text (s.performOn fs).1.ending receipt ∧
      (s.performOn fs).1.log = (assembleTraced text).trace ++ receipt := by
  rcases Outcome.ok_or_error (assemble text) with ⟨words, hwords⟩ | ⟨fault, hfault⟩
  · rw [performOn_of_words htext hwords]
    cases houtput : s.output with
    | none =>
      rw [deliver_printed _ _ houtput, s.visible_of_verbose hverbose]
      exact ⟨[], .nothing (Or.inl houtput), (List.append_nil _).symm⟩
    | some path => exact log_deliver_of_output hverbose hwords houtput _
  · rw [performOn_of_fault htext hfault, s.visible_of_verbose hverbose]
    refine ⟨[], .nothing (Or.inr ?_), (List.append_nil _).symm⟩
    exact Outcome.ending_exit_ne (by decide)

end Log

section Run

variable {fs : FileSystem} {argv : List String}

theorem run_of_ok {c : Command} (h : understand argv = .ok c) :
    run fs argv = (c.perform modelAccess).run fs := by
  rw [run, runWith_of_ok modelAccess h]

theorem log_run_executeUnnamed (s : Settings) :
    ((executeUnnamed modelAccess s).run fs).1.log =
      (({ s with output := none } : Settings).performOn fs).1.log := by
  have hlog := congrArg (StateT.run · fs) (log_executeUnnamed modelAccess s)
  exact congrArg Prod.fst hlog

theorem log_run_of_error {stop : Stop} (h : understand argv = .error stop) :
    (run fs argv).1.log = [] := by
  rw [run, runWith, h]
  cases stop <;> rfl

theorem log_run_of_quiet (h : ∀ c, understand argv = .ok c → c.settings.verbose = false) :
    (run fs argv).1.log = [] := by
  rcases Outcome.ok_or_error (understand argv) with ⟨c, hc⟩ | ⟨stop, hstop⟩
  · have hquiet : c.withVerbose false = c := by
      rw [← h c hc, c.withVerbose_self]
    rw [run_of_ok hc, ← hquiet, c.perform_withVerbose_false]
    rfl
  · exact log_run_of_error hstop

theorem log_run_of_no_text {c : Command} (hc : understand argv = .ok c)
    (h : ∀ text, ¬ SourceText fs c.settings.source text) : (run fs argv).1.log = [] := by
  rw [run_of_ok hc]
  cases c with
  | run s => exact log_performOn_of_no_text h
  | runUnnamed s => exact (log_run_executeUnnamed s).trans (log_performOn_of_no_text h)

theorem log_run_of_text {c : Command} {text : String} (hc : understand argv = .ok c)
    (hverbose : c.settings.verbose = true) (htext : SourceText fs c.settings.source text) :
    ∃ receipt, Receipt c text (run fs argv).1.ending receipt ∧
      (run fs argv).1.log = (assembleTraced text).trace ++ receipt := by
  rw [run_of_ok hc]
  cases c with
  | run s => exact log_performOn_of_text hverbose htext
  | runUnnamed s =>
    -- the run that prints has no file to record
    obtain ⟨receipt, hreceipt, hlog⟩ := log_performOn_of_text (s := { s with output := none })
      hverbose htext
    cases hreceipt with
    | written _ houtput _ => cases houtput
    | nothing _ => exact ⟨[], .nothing (Or.inl rfl), (log_run_executeUnnamed s).trans hlog⟩

theorem logContract_run (fs : FileSystem) (argv : List String) :
    LogContract fs argv (run fs argv).1 where
  quiet := log_run_of_quiet
  untold _ := log_run_of_no_text
  shown _ _ := log_run_of_text

/-- Two runs end alike, print the same and leave the same files. -/
def AgreeUpToLog (r r' : Outcome × FileSystem) : Prop :=
  r.1.withoutLog = r'.1.withoutLog ∧ r.2 = r'.2

/-- Command lines that ask for the same up to the trace do the same up to the log. -/
theorem agreeUpToLog_run {argv' : List String}
    (h : Command.withVerbose false <$> understand argv =
      Command.withVerbose false <$> understand argv') :
    AgreeUpToLog (run fs argv) (run fs argv') := by
  have hrun := congrArg (StateT.run · fs) (withoutLog_runWith modelAccess h)
  have hseen := congrArg Prod.fst hrun
  have hfiles := congrArg Prod.snd hrun
  exact ⟨hseen, hfiles⟩

theorem agreeUpToLog_verbose_cons {flag : String} (h : flag ∈ ["-v", "--verbose"]) :
    AgreeUpToLog (run fs (flag :: argv)) (run fs argv) := by
  refine agreeUpToLog_run ?_
  rw [understand_verbose_cons h, ← comp_map]
  congr 1
  funext c
  exact c.withVerbose_withVerbose true false

end Run

end CommandLine
end MipsAssembler
