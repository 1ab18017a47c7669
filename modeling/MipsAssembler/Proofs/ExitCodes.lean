import Mathlib
import MipsAssembler.Proofs.LineEnds
import MipsAssembler.Proofs.WordText

/-!
# Exit codes, and what a run leaves behind

A run of the command line can go wrong in three places, and they are tried in a fixed order:
the source is read, its text is assembled, and the output, if there is one, is written.  The
exit code says which of them it was, and nothing is printed then but the complaint.

What is left behind depends on how far the run came.  If the source could not be read or has
a fault, no file was touched.  If the output could not be opened, neither.  But opening an
output empties it, and the writing may break off after that, on a disk that is full.  The exit
code is the same as if the file could not be opened, and yet the file has changed: it holds a
first part of the listing.  It is the only file that has.

`Course` says once what a run can do, with everything that is seen of it and the files
afterwards.  There are six courses, since a run that succeeds prints or writes, and a run that
cannot write was refused the file or broke off.  Each of them is entered under a condition that
excludes the others, and so the exit codes are read off: `Course.contract`.

The two ways of delivery are not the same.  What is printed has line feeds between the lines
and one at the end, what is written has one behind every line.  These are equal texts as
soon as there is a line, but a program without words prints an empty line and writes an
empty file (`Listing.joined_newline_eq_fileText_iff`).

Nothing is assumed about where the output lies.  It may be the file that the source was read
from; the source has then been read to its end before the listing replaces it.  Paths must be
without null characters, for which the system cannot be asked, and what the source holds must
be a text; otherwise the run does not come to an exit code.
-/

namespace MipsAssembler

/-! ## What was written can be read -/

namespace FileSystem

variable {fs : FileSystem} {p : Place} {bytes : ByteArray}

theorem isDirectory_store (q : Place) : (fs.store p bytes).isDirectory q = fs.isDirectory q := rfl

theorem permit_store (step : Step) (q : Place) :
    (fs.store p bytes).permit step q = fs.permit step q := rfl

/-- A new file closes no way that was open. -/
theorem descend_store {here next : Place} {name : String}
    (h : fs.descend here name = .ok next) : (fs.store p bytes).descend here name = .ok next := by
  obtain ⟨_, hsearch, h⟩ := Outcome.bind_eq_ok_iff.mp h
  rw [descend, permit_store, hsearch, Outcome.ok_bind]
  by_cases hdot : name = "."
  · rw [if_pos hdot] at h ⊢
    exact h
  rw [if_neg hdot] at h ⊢
  by_cases hup : name = ".."
  · rw [if_pos hup] at h ⊢
    exact h
  rw [if_neg hup] at h ⊢
  obtain ⟨_, hname, h⟩ := Outcome.bind_eq_ok_iff.mp h
  rw [hname, Outcome.ok_bind]
  by_cases hdirectory : fs.isDirectory (here ++ [name]) = true
  · rw [if_pos hdirectory] at h
    exact (if_pos hdirectory).trans h
  · rw [if_neg hdirectory] at h
    split_ifs at h

theorem walk_store {here : Place} {names : List String} {t : Target}
    (h : fs.walk here names = .ok t) : (fs.store p bytes).walk here names = .ok t := by
  fun_induction walk fs here names with
  | case1 => exact h
  | case2 here name => exact h
  | case3 here name rest hrest ih =>
    obtain ⟨next, hnext, h⟩ := Outcome.bind_eq_ok_iff.mp h
    rw [walk, descend_store hnext, Outcome.ok_bind]
    · exact ih next h
    · exact hrest

theorem target_store {path : String} {t : Target} (h : fs.target path = .ok t) :
    (fs.store p bytes).target path = .ok t := by
  unfold target at h ⊢
  split_ifs at h ⊢
  exact walk_store h

/-- A path that can be written ends in a name that is no directory. -/
theorem exists_entry_of_writable {path : String} {place : Place}
    (h : fs.writable path = .ok place) :
    ∃ here name, fs.target path = .ok (.entry here name) ∧ place = here ++ [name] ∧
      endsWithSlash path = false ∧ checkName name = .ok () ∧
      fs.isDirectory (here ++ [name]) = false := by
  obtain ⟨t, htarget, h⟩ := Outcome.bind_eq_ok_iff.mp h
  cases t with
  | directory => cases h
  | entry here name =>
    dsimp only at h
    by_cases hslash : endsWithSlash path = true
    · rw [if_pos hslash] at h
      cases h
    rw [if_neg hslash] at h
    obtain ⟨_, hname, h⟩ := Outcome.bind_eq_ok_iff.mp h
    by_cases hdirectory : fs.isDirectory (here ++ [name]) = true
    · rw [if_pos hdirectory] at h
      cases h
    rw [if_neg hdirectory] at h
    have hplace : here ++ [name] = place := by
      split at h <;>
      · obtain ⟨_, -, h⟩ := Outcome.bind_eq_ok_iff.mp h
        exact Except.ok.inj h
    exact ⟨here, name, htarget, hplace.symm, by simpa using hslash, hname,
      by simpa using hdirectory⟩

/-- What was stored under a path is read under it, if the system lets it be read. -/
theorem eq_of_read_store {path : String} {place : Place} {found : ByteArray}
    (h : fs.writable path = .ok place) (hread : (fs.store place bytes).read path = .ok found) :
    found = bytes := by
  obtain ⟨here, name, htarget, rfl, hslash, hname, hdirectory⟩ := exists_entry_of_writable h
  have hreadable : (fs.store (here ++ [name]) bytes).readable path =
      (fs.permit .openToRead (here ++ [name])) >>= fun _ => .ok (here ++ [name], bytes) := by
    rw [readable, target_store htarget, Outcome.ok_bind]
    dsimp only
    rw [hname, Outcome.ok_bind]
    simp [isDirectory_store, hdirectory, contents?_store, hslash, permit_store, Except.pure,
      pure]
  rw [read, hreadable] at hread
  cases hpermit : fs.permit .openToRead (here ++ [name]) with
  | error e =>
    rw [hpermit] at hread
    cases hread
  | ok u =>
    rw [hpermit, Outcome.ok_bind] at hread
    dsimp only at hread
    split at hread
    · cases hread
    · exact (Except.ok.inj hread).symm

/-- The files are the same except for one, which holds the bytes. -/
structure ChangedAt (fs after : FileSystem) (place : Place) (bytes : ByteArray) : Prop where
  here : after.contents? place = some bytes
  elsewhere : ∀ other, other ≠ place → after.contents? other = fs.contents? other
  directories : after.directories = fs.directories

theorem changedAt_store (fs : FileSystem) (place : Place) (bytes : ByteArray) :
    fs.ChangedAt (fs.store place bytes) place bytes where
  here := by rw [contents?_store, if_pos rfl]
  elsewhere := by
    intro other hother
    rw [contents?_store, if_neg hother]
  directories := rfl

end FileSystem

/-! ## Printed and written listings -/

namespace Listing

theorem joined_newline_eq_fileText {lines : List String} (h : lines ≠ []) :
    joined lines ++ "\n" = fileText lines := by
  induction lines with
  | nil => exact absurd rfl h
  | cons line rest ih =>
    rw [fileText, List.map_cons, String.join_cons]
    by_cases hrest : rest = []
    · subst hrest
      rw [joined, String.intercalate_singleton, List.map_nil, String.join_nil, String.append_empty]
    · rw [joined, String.intercalate_cons_of_ne_nil hrest, String.append_assoc]
      exact congrArg (line ++ "\n" ++ ·) (ih hrest)

/-- The printed listing and the written one are the same text unless there are no lines. -/
theorem joined_newline_eq_fileText_iff {lines : List String} :
    joined lines ++ "\n" = fileText lines ↔ lines ≠ [] := by
  refine ⟨?_, joined_newline_eq_fileText⟩
  rintro h rfl
  exact absurd h (by decide)

end Listing

namespace CommandLine

/-! ## What a run can do -/

/-- A run with known settings on a model of the files. -/
def Settings.performOn (s : Settings) (fs : FileSystem) : Outcome × FileSystem :=
  (execute modelAccess s).run fs

/-- The paths that a run is given. -/
def Settings.paths (s : Settings) : List String := s.source :: s.output.toList

/-- The text of a source: what its bytes spell, with every line end a line feed. -/
def SourceText (fs : FileSystem) (path text : String) : Prop :=
  hasNull path = false ∧
    ∃ content : String, fs.read path = .ok content.toUTF8 ∧ text = Text.translate content

/-- The bytes of the file for some words. -/
def Settings.fileBytes (s : Settings) (words : List Word) : ByteArray :=
  (Listing.fileText (s.format.lines words)).toUTF8

/-- The courses that a run can take, with what is seen of it and the files afterwards. -/
inductive Course (fs : FileSystem) (s : Settings) : Outcome → FileSystem → Prop
  | unreadable {e : FileError} (hread : fs.read s.source = .error e) :
      Course fs s (.exit 2 "" (unreadableSource s.source e) []) fs
  | faulty {text : String} {fault : Fault} {log : List Trace.Event}
      (htext : SourceText fs s.source text) (hfault : assemble text = .error fault) :
      Course fs s
        (.exit 1 "" (diagnosticLines (.ofResult (some s.source) (.error fault))) log) fs
  | printed {text : String} {words : List Word} {log : List Trace.Event}
      (htext : SourceText fs s.source text) (hwords : assemble text = .ok words)
      (houtput : s.output = none) :
      Course fs s (.exit 0 (Listing.joined (s.format.lines words) ++ "\n") "" log) fs
  | unopened {text : String} {words : List Word} {path : String} {e : SystemError}
      {log : List Trace.Event} (htext : SourceText fs s.source text)
      (hwords : assemble text = .ok words) (houtput : s.output = some path)
      (hplace : fs.writable path = .error e) :
      Course fs s (.exit 3 "" (unwritableOutput path (.unopened e)) log) fs
  | brokenOff {text : String} {words : List Word} {path : String} {place : Place} {kept : Nat}
      {e : SystemError} {log : List Trace.Event} (htext : SourceText fs s.source text)
      (hwords : assemble text = .ok words) (houtput : s.output = some path)
      (hplace : fs.writable path = .ok place)
      (hbreak : fs.interruption place (s.fileBytes words).size = some (kept, e)) :
      Course fs s (.exit 3 "" (unwritableOutput path (.brokenOff e)) log)
        (fs.store place ((s.fileBytes words).extract 0 kept))
  | written {text : String} {words : List Word} {path : String} {place : Place}
      {log : List Trace.Event} (htext : SourceText fs s.source text)
      (hwords : assemble text = .ok words) (houtput : s.output = some path)
      (hplace : fs.writable path = .ok place)
      (hwhole : fs.interruption place (s.fileBytes words).size = none) :
      Course fs s (.exit 0 "" "" log) (fs.store place (s.fileBytes words))

section

variable {fs : FileSystem} {s : Settings}

theorem run_eq_performOn {argv : List String} (h : understand argv = .ok (.run s)) :
    run fs argv = s.performOn fs := by
  rw [run, runWith, h]
  rfl

theorem run_read (path : String) :
    (modelAccess.read path).run fs = pure (fs.read path, fs) := rfl

theorem run_write (path : String) (bytes : ByteArray) :
    (modelAccess.write path bytes).run fs = pure (fs.write path bytes) := rfl

theorem performOn_of_null (hnull : hasNull s.source = true) :
    s.performOn fs = (⟨.nullInPath, "", "", []⟩, fs) := by
  rw [Settings.performOn, execute, if_pos hnull]
  rfl

/-- The source is read, and its bytes are worked on. -/
theorem performOn_of_not_null (hnull : hasNull s.source = false) :
    s.performOn fs =
      match fs.read s.source with
      | .error e => (.exit 2 "" (unreadableSource s.source e) [], fs)
      | .ok bytes => (executeOn modelAccess s bytes).run fs := by
  simp only [Settings.performOn, execute, hnull, Bool.false_eq_true, if_false, StateT.run_bind,
    run_read, pure_bind]
  cases fs.read s.source <;> rfl

theorem performOn_of_read_error {e : FileError} (hnull : hasNull s.source = false)
    (hread : fs.read s.source = .error e) :
    s.performOn fs = (.exit 2 "" (unreadableSource s.source e) [], fs) := by
  rw [performOn_of_not_null hnull, hread]

section Text

variable {text : String}

theorem SourceText.performOn_eq (htext : SourceText fs s.source text) :
    s.performOn fs =
      match assemble text with
      | .error fault =>
        (.exit 1 "" (diagnosticLines (.ofResult (some s.source) (.error fault)))
          (s.visible (assembleTraced text).trace), fs)
      | .ok words => (deliver modelAccess s words (assembleTraced text).trace).run fs := by
  obtain ⟨hnull, content, hread, rfl⟩ := htext
  rw [performOn_of_not_null hnull, hread]
  simp only [executeOn, decodeSource_toUTF8, assembleTraced_result]
  cases assemble (Text.translate content) <;> rfl

theorem performOn_of_fault {fault : Fault} (htext : SourceText fs s.source text)
    (hfault : assemble text = .error fault) :
    s.performOn fs =
      (.exit 1 "" (diagnosticLines (.ofResult (some s.source) (.error fault)))
        (s.visible (assembleTraced text).trace), fs) := by
  rw [htext.performOn_eq, hfault]

/-- A source that assembles is delivered. -/
theorem performOn_of_words {words : List Word} (htext : SourceText fs s.source text)
    (hwords : assemble text = .ok words) :
    s.performOn fs = (deliver modelAccess s words (assembleTraced text).trace).run fs := by
  rw [htext.performOn_eq, hwords]

end Text

theorem deliver_printed (words : List Word) (trace : List Trace.Event) (h : s.output = none) :
    (deliver modelAccess s words trace).run fs =
      (.exit 0 (Listing.joined (s.format.lines words) ++ "\n") "" (s.visible trace), fs) := by
  simp only [deliver, h, StateT.run_pure]
  rfl

section Delivery

variable (words : List Word) (trace : List Trace.Event) {path : String}

/-- The listing is written to a path that the system can be asked for. -/
theorem deliver_of_output (h : s.output = some path) (hnull : hasNull path = false) :
    (deliver modelAccess s words trace).run fs =
      match fs.write path (s.fileBytes words) with
      | (.error e, after) => (.exit 3 "" (unwritableOutput path e) (s.visible trace), after)
      | (.ok (), after) =>
        (.exit 0 "" "" (s.visible (trace ++ [.written words.length path])), after) := by
  simp only [deliver, h, hnull, Bool.false_eq_true, if_false, StateT.run_bind, run_write, pure_bind,
    Settings.fileBytes]
  obtain ⟨result, after⟩ := fs.write path (Listing.fileText (s.format.lines words)).toUTF8
  cases result <;> rfl

theorem deliver_null (h : s.output = some path) (hnull : hasNull path = true) :
    (deliver modelAccess s words trace).run fs =
      (⟨.nullInPath, "", "", s.visible trace⟩, fs) := by
  simp only [deliver, h, hnull, if_true]
  rfl

theorem deliver_unopened {e : SystemError} (h : s.output = some path)
    (hnull : hasNull path = false) (hplace : fs.writable path = .error e) :
    (deliver modelAccess s words trace).run fs =
      (.exit 3 "" (unwritableOutput path (.unopened e)) (s.visible trace), fs) := by
  rw [deliver_of_output words trace h hnull, FileSystem.write, hplace]

theorem deliver_brokenOff {place : Place} {kept : Nat} {e : SystemError} (h : s.output = some path)
    (hnull : hasNull path = false) (hplace : fs.writable path = .ok place)
    (hbreak : fs.interruption place (s.fileBytes words).size = some (kept, e)) :
    (deliver modelAccess s words trace).run fs =
      (.exit 3 "" (unwritableOutput path (.brokenOff e)) (s.visible trace),
        fs.store place ((s.fileBytes words).extract 0 kept)) := by
  rw [deliver_of_output words trace h hnull, FileSystem.write, hplace]
  dsimp only
  rw [hbreak]

theorem deliver_written {place : Place} (h : s.output = some path)
    (hnull : hasNull path = false) (hplace : fs.writable path = .ok place)
    (hwhole : fs.interruption place (s.fileBytes words).size = none) :
    (deliver modelAccess s words trace).run fs =
      (.exit 0 "" "" (s.visible (trace ++ [.written words.length path])),
        fs.store place (s.fileBytes words)) := by
  rw [deliver_of_output words trace h hnull, FileSystem.write, hplace]
  dsimp only
  rw [hwhole]

end Delivery

/-- If no path has a null character, and the source is a text whenever it can be read, a run
takes one of the courses. -/
theorem performOn_course (hnull : ∀ path ∈ s.paths, hasNull path = false)
    (hutf8 : ∀ bytes, fs.read s.source = .ok bytes → bytes.IsValidUTF8) :
    Course fs s (s.performOn fs).1 (s.performOn fs).2 := by
  have hsource : hasNull s.source = false := hnull _ List.mem_cons_self
  cases hread : fs.read s.source with
  | error e =>
    rw [performOn_of_read_error hsource hread]
    exact .unreadable hread
  | ok bytes =>
    obtain ⟨text, htext⟩ : ∃ text, SourceText fs s.source text :=
      ⟨_, hsource, String.fromUTF8 bytes (hutf8 bytes hread), hread, rfl⟩
    rcases Outcome.ok_or_error (assemble text) with ⟨words, hwords⟩ | ⟨fault, hfault⟩
    · rw [performOn_of_words htext hwords]
      cases houtput : s.output with
      | none =>
        rw [deliver_printed _ _ houtput]
        exact .printed htext hwords houtput
      | some path =>
        have hpath : hasNull path = false := by
          refine hnull path (List.mem_cons_of_mem _ ?_)
          rw [houtput]
          exact List.mem_cons_self
        rcases Outcome.ok_or_error (fs.writable path) with ⟨place, hplace⟩ | ⟨e, hplace⟩
        · cases hbreak : fs.interruption place (s.fileBytes words).size with
          | none =>
            rw [deliver_written _ _ houtput hpath hplace hbreak]
            exact .written htext hwords houtput hplace hbreak
          | some cut =>
            rw [deliver_brokenOff _ _ houtput hpath hplace hbreak]
            exact .brokenOff htext hwords houtput hplace hbreak
        · rw [deliver_unopened _ _ houtput hpath hplace]
          exact .unopened htext hwords houtput hplace
    · rw [performOn_of_fault htext hfault]
      exact .faulty htext hfault

end

/-! ## The contract -/

/-- The source cannot be read: it cannot be opened, or the reading breaks off. -/
def Unreadable (fs : FileSystem) (s : Settings) : Prop := ∃ e, fs.read s.source = .error e

/-- The text of the source has a fault. -/
def Faulty (fs : FileSystem) (s : Settings) : Prop :=
  ∃ text fault, SourceText fs s.source text ∧ assemble text = .error fault

/-- The lines of the listing: the binary texts of the words, as they are or in hexadecimal. -/
def Lists (fs : FileSystem) (s : Settings) (lines : List String) : Prop :=
  ∃ text words, SourceText fs s.source text ∧ assemble text = .ok words ∧
    s.format.linesOfText (words.map Word.toBinary) = .ok lines

/-- There is an output, and it cannot be opened. -/
def Unopened (fs : FileSystem) (s : Settings) : Prop :=
  ∃ path e, s.output = some path ∧ fs.writable path = .error e

/-- The output is opened at a place, and the writing of the bytes breaks off when the first
`kept` of them are there. -/
def CutShort (fs : FileSystem) (s : Settings) (place : Place) (bytes : ByteArray) (kept : Nat) :
    Prop :=
  ∃ path lines e, s.output = some path ∧ fs.writable path = .ok place ∧ Lists fs s lines ∧
    bytes = (Listing.fileText lines).toUTF8 ∧ fs.interruption place bytes.size = some (kept, e)

/-- There is an output, and it cannot be opened, or the writing breaks off. -/
def Unwritable (fs : FileSystem) (s : Settings) : Prop :=
  Unopened fs s ∨ ∃ place bytes kept, CutShort fs s place bytes kept

/-- What a run promises about its exit code, what it prints, and the files afterwards. -/
structure Contract (fs : FileSystem) (s : Settings) (o : Outcome) (after : FileSystem) : Prop where
  two : o.ending = .exit 2 ↔ Unreadable fs s
  one : ¬ Unreadable fs s → (o.ending = .exit 1 ↔ Faulty fs s)
  three : ¬ Unreadable fs s → ¬ Faulty fs s → (o.ending = .exit 3 ↔ Unwritable fs s)
  zero : ¬ Unreadable fs s → ¬ Faulty fs s → ¬ Unwritable fs s → o.ending = .exit 0
  failed : ∀ code ∈ [1, 2, 3], o.ending = .exit code → o.stdout = "" ∧ o.stderr ≠ ""
  untouched : o.ending = .exit 1 ∨ o.ending = .exit 2 ∨ (o.ending = .exit 3 ∧ Unopened fs s) →
    after = fs
  cut : o.ending = .exit 3 → ¬ Unopened fs s →
    ∃ place bytes kept, CutShort fs s place bytes kept ∧
      fs.ChangedAt after place (bytes.extract 0 kept)
  printed : o.ending = .exit 0 → s.output = none →
    after = fs ∧ ∃ lines, Lists fs s lines ∧ o.stdout = Listing.joined lines ++ "\n"
  written : ∀ path, o.ending = .exit 0 → s.output = some path →
    o.stdout = "" ∧ ∃ lines place, Lists fs s lines ∧ fs.writable path = .ok place ∧
      fs.ChangedAt after place (Listing.fileText lines).toUTF8 ∧
      ∀ found, after.read path = .ok found → found = (Listing.fileText lines).toUTF8

section

variable {fs : FileSystem} {s : Settings} {text : String}

theorem SourceText.not_unreadable (h : SourceText fs s.source text) : ¬ Unreadable fs s := by
  rintro ⟨e, he⟩
  obtain ⟨-, content, hread, -⟩ := h
  cases he.symm.trans hread

theorem SourceText.unique {path text' : String} (h : SourceText fs path text)
    (h' : SourceText fs path text') : text = text' := by
  obtain ⟨-, content, hread, rfl⟩ := h
  obtain ⟨-, content', hread', rfl⟩ := h'
  have hbytes : content.toUTF8 = content'.toUTF8 := Except.ok.inj (hread.symm.trans hread')
  rw [String.toByteArray_inj.mp hbytes]

theorem SourceText.not_faulty (h : SourceText fs s.source text) {words : List Word}
    (hwords : assemble text = .ok words) : ¬ Faulty fs s := by
  rintro ⟨text', fault, htext', hfault⟩
  rw [h.unique htext'] at hwords
  cases hwords.symm.trans hfault

theorem SourceText.lists (h : SourceText fs s.source text) {words : List Word}
    (hwords : assemble text = .ok words) : Lists fs s (s.format.lines words) :=
  ⟨text, words, h, hwords, s.format.linesOfText_toBinary words⟩

/-- A program has one listing. -/
theorem SourceText.eq_of_lists (h : SourceText fs s.source text) {words : List Word}
    (hwords : assemble text = .ok words) {lines : List String} (hlists : Lists fs s lines) :
    lines = s.format.lines words := by
  obtain ⟨text', words', htext', hwords', hlines⟩ := hlists
  rw [h.unique htext', hwords', Except.ok.injEq] at hwords
  rw [hwords, Listing.Format.linesOfText_toBinary, Except.ok.injEq] at hlines
  exact hlines.symm

theorem append_newline_ne_empty (text : String) : text ++ "\n" ≠ "" := by
  simp

theorem diagnosticLines_ne_empty (file : Option String) (fault : Fault) :
    diagnosticLines (.ofResult file (.error fault)) ≠ "" := by
  simp [diagnosticLines, Report.ofResult]

/-- A run that ends with one code does not end with another. -/
theorem Outcome.ending_exit_ne {code code' : Nat} {stdout stderr : String}
    {log : List Trace.Event} (h : code ≠ code') :
    (exit code stdout stderr log).ending ≠ .exit code' :=
  fun hending => h (Ending.exit.inj hending)

namespace Course

variable {o : Outcome} {after : FileSystem}

theorem exit_two_iff (h : Course fs s o after) : o.ending = .exit 2 ↔ Unreadable fs s := by
  cases h with
  | unreadable hread => exact iff_of_true rfl ⟨_, hread⟩
  | faulty htext _ | printed htext _ _ | unopened htext _ _ _ | brokenOff htext _ _ _ _
  | written htext _ _ _ _ =>
    exact iff_of_false (Outcome.ending_exit_ne (by decide)) htext.not_unreadable

theorem exit_one_iff (h : Course fs s o after) (hreadable : ¬ Unreadable fs s) :
    o.ending = .exit 1 ↔ Faulty fs s := by
  cases h with
  | unreadable hread => exact absurd ⟨_, hread⟩ hreadable
  | faulty htext hfault => exact iff_of_true rfl ⟨_, _, htext, hfault⟩
  | printed htext hwords _ | unopened htext hwords _ _ | brokenOff htext hwords _ _ _
  | written htext hwords _ _ _ =>
    exact iff_of_false (Outcome.ending_exit_ne (by decide)) (htext.not_faulty hwords)

/-- Behind the source and its text only the output is left to decide. -/
theorem exit_three_or_zero (h : Course fs s o after) (hreadable : ¬ Unreadable fs s)
    (hsound : ¬ Faulty fs s) :
    (o.ending = .exit 3 ∧ Unwritable fs s) ∨ (o.ending = .exit 0 ∧ ¬ Unwritable fs s) := by
  cases h with
  | unreadable hread => exact absurd ⟨_, hread⟩ hreadable
  | faulty htext hfault => exact absurd ⟨_, _, htext, hfault⟩ hsound
  | unopened _ _ houtput hplace => exact Or.inl ⟨rfl, Or.inl ⟨_, _, houtput, hplace⟩⟩
  | brokenOff htext hwords houtput hplace hbreak =>
    have hlists := htext.lists hwords
    exact Or.inl ⟨rfl, Or.inr ⟨_, _, _, _, _, _, houtput, hplace, hlists, rfl, hbreak⟩⟩
  | printed _ _ houtput =>
    refine Or.inr ⟨rfl, ?_⟩
    rintro (⟨path, e, hpath, -⟩ | ⟨place, bytes, kept, path, lines, e, hpath, -⟩)
    · cases houtput.symm.trans hpath
    · cases houtput.symm.trans hpath
  | written htext hwords houtput hplace hwhole =>
    refine Or.inr ⟨rfl, ?_⟩
    rintro (⟨path, e, hpath, he⟩ |
      ⟨place', bytes, kept, path, lines, e, hpath, hopen, hlists, rfl, he⟩)
    · cases Option.some.inj (houtput.symm.trans hpath)
      cases hplace.symm.trans he
    · cases Option.some.inj (houtput.symm.trans hpath)
      cases Except.ok.inj (hplace.symm.trans hopen)
      rw [htext.eq_of_lists hwords hlists] at he
      cases hwhole.symm.trans he

/-- A run that fails prints nothing but a complaint. -/
theorem of_ne_zero (h : Course fs s o after) (hending : o.ending ≠ .exit 0) :
    o.stdout = "" ∧ o.stderr ≠ "" := by
  cases h with
  | faulty _ _ => exact ⟨rfl, diagnosticLines_ne_empty _ _⟩
  | unreadable _ | unopened _ _ _ _ | brokenOff _ _ _ _ _ =>
    exact ⟨rfl, append_newline_ne_empty _⟩
  | printed _ _ _ | written _ _ _ _ _ => exact absurd rfl hending

/-- A run that does not come to writing leaves the files as they were. -/
theorem eq_of_untouched (h : Course fs s o after)
    (hending : o.ending = .exit 1 ∨ o.ending = .exit 2 ∨ (o.ending = .exit 3 ∧ Unopened fs s)) :
    after = fs := by
  cases h with
  | unreadable _ | faulty _ _ | printed _ _ _ | unopened _ _ _ _ => rfl
  | brokenOff _ _ houtput hplace _ =>
    rcases hending with hending | hending | ⟨-, path, e, hpath, he⟩
    · exact absurd hending (Outcome.ending_exit_ne (by decide))
    · exact absurd hending (Outcome.ending_exit_ne (by decide))
    · cases Option.some.inj (houtput.symm.trans hpath)
      cases hplace.symm.trans he
  | written _ _ _ _ _ =>
    rcases hending with hending | hending | ⟨hending, -⟩ <;>
      exact absurd hending (Outcome.ending_exit_ne (by decide))

/-- A run whose writing breaks off leaves a first part of the listing, and no other change. -/
theorem of_cut (h : Course fs s o after) (hending : o.ending = .exit 3)
    (hopened : ¬ Unopened fs s) :
    ∃ place bytes kept, CutShort fs s place bytes kept ∧
      fs.ChangedAt after place (bytes.extract 0 kept) := by
  cases h with
  | unreadable _ | faulty _ _ | printed _ _ _ | written _ _ _ _ _ =>
    exact absurd hending (Outcome.ending_exit_ne (by decide))
  | unopened _ _ houtput hplace => exact absurd ⟨_, _, houtput, hplace⟩ hopened
  | brokenOff htext hwords houtput hplace hbreak =>
    exact ⟨_, _, _, ⟨_, _, _, houtput, hplace, htext.lists hwords, rfl, hbreak⟩,
      FileSystem.changedAt_store _ _ _⟩

theorem of_printed (h : Course fs s o after) (hending : o.ending = .exit 0)
    (houtput : s.output = none) :
    after = fs ∧ ∃ lines, Lists fs s lines ∧ o.stdout = Listing.joined lines ++ "\n" := by
  cases h with
  | unreadable _ | faulty _ _ | unopened _ _ _ _ | brokenOff _ _ _ _ _ =>
    exact absurd hending (Outcome.ending_exit_ne (by decide))
  | printed htext hwords _ => exact ⟨rfl, _, htext.lists hwords, rfl⟩
  | written _ _ hpath _ _ => cases houtput.symm.trans hpath

theorem of_written (h : Course fs s o after) {path : String} (hending : o.ending = .exit 0)
    (houtput : s.output = some path) :
    o.stdout = "" ∧ ∃ lines place, Lists fs s lines ∧ fs.writable path = .ok place ∧
      after = fs.store place (Listing.fileText lines).toUTF8 := by
  cases h with
  | unreadable _ | faulty _ _ | unopened _ _ _ _ | brokenOff _ _ _ _ _ =>
    exact absurd hending (Outcome.ending_exit_ne (by decide))
  | printed _ _ hnone => cases houtput.symm.trans hnone
  | written htext hwords hpath hplace _ =>
    cases Option.some.inj (houtput.symm.trans hpath)
    exact ⟨rfl, _, _, htext.lists hwords, hplace, rfl⟩

/-- A run that takes one of the courses keeps the contract. -/
theorem contract (h : Course fs s o after) : Contract fs s o after where
  two := h.exit_two_iff
  one := h.exit_one_iff
  three := by
    intro hreadable hsound
    rcases h.exit_three_or_zero hreadable hsound with ⟨hending, hcause⟩ | ⟨hending, hnot⟩
    · exact iff_of_true hending hcause
    · refine iff_of_false (fun hthree => ?_) hnot
      exact absurd (Ending.exit.inj (hending.symm.trans hthree)) (by decide)
  zero := by
    intro hreadable hsound hwritable
    rcases h.exit_three_or_zero hreadable hsound with ⟨-, hcause⟩ | ⟨hending, -⟩
    · exact absurd hcause hwritable
    · exact hending
  failed := by
    intro code hcode hending
    refine h.of_ne_zero fun hzero => ?_
    rw [Ending.exit.inj (hending.symm.trans hzero)] at hcode
    exact absurd hcode (by decide)
  untouched := h.eq_of_untouched
  cut := h.of_cut
  printed := h.of_printed
  written := by
    intro path hending houtput
    obtain ⟨hstdout, lines, place, hlists, hplace, rfl⟩ := h.of_written hending houtput
    exact ⟨hstdout, lines, place, hlists, hplace, FileSystem.changedAt_store _ _ _,
      fun found hfound => FileSystem.eq_of_read_store hplace hfound⟩

end Course

/-- A run that writes its listing to the end. -/
theorem performOn_eq_of_exit_zero {words : List Word} {path : String} {place : Place}
    (htext : SourceText fs s.source text) (hwords : assemble text = .ok words)
    (houtput : s.output = some path) (hplace : fs.writable path = .ok place)
    (hexit : (s.performOn fs).1.ending = .exit 0) :
    (s.performOn fs).2 = fs.store place (s.fileBytes words) := by
  rw [performOn_of_words htext hwords] at hexit ⊢
  cases hnull : hasNull path with
  | true =>
    rw [deliver_null _ _ houtput hnull] at hexit
    cases hexit
  | false =>
    cases hbreak : fs.interruption place (s.fileBytes words).size with
    | some cut =>
      rw [deliver_brokenOff _ _ houtput hnull hplace hbreak] at hexit
      exact absurd hexit (Outcome.ending_exit_ne (by decide))
    | none => rw [deliver_written _ _ houtput hnull hplace hbreak]

end

/-- The file that one run writes for a program holds what another prints for it, in the same
format, unless the program has no words.  The two runs may see different files. -/
theorem written_eq_printed_iff {fs fs' : FileSystem} {s s' : Settings} {text : String}
    {words : List Word} {path : String} {place : Place} (htext : SourceText fs s.source text)
    (htext' : SourceText fs' s'.source text) (hwords : assemble text = .ok words)
    (hformat : s'.format = s.format) (houtput : s.output = none)
    (houtput' : s'.output = some path) (hplace : fs'.writable path = .ok place)
    (hexit : (s'.performOn fs').1.ending = .exit 0) :
    (s'.performOn fs').2.contents? place = some (s.performOn fs).1.stdout.toUTF8 ↔
      words ≠ [] := by
  rw [performOn_eq_of_exit_zero htext' hwords houtput' hplace hexit,
    performOn_of_words htext hwords, deliver_printed _ _ houtput, FileSystem.contents?_store,
    if_pos rfl, Settings.fileBytes, hformat, Option.some.injEq]
  have hlines : s.format.lines words ≠ [] ↔ words ≠ [] := not_congr List.map_eq_nil_iff
  rw [← hlines, ← Listing.joined_newline_eq_fileText_iff, eq_comm]
  exact String.toByteArray_inj

end CommandLine
end MipsAssembler
