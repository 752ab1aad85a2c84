import SvmLight.CommandLine.Scan
import SvmLight.Proofs.Decode

/-!
# Accepted input files

A command line that is accepted names regular files only: each path is looked up when it is taken,
and nothing else adds a path. The paths are words of the command line, in their order. No file is
opened for that, so one that cannot be opened is accepted as well.

* `FileSystem.IsFile` — a path leads to a regular file.
* `Given.Found` — all paths that have been taken lead to such files.
* `Scan.Took` — the invariant: this, and what has been read are words, in their order.
* `Scan.took_step`, `Scan.took_run` — a word keeps it, and so does a command line.
* `Arguments.inputs_of_ofWords` — so an accepted command line has input files, and all are files.
-/

namespace SvmLight

/-- A path leads to a regular file, whatever comes of opening it. -/
def FileSystem.IsFile (files : FileSystem) (path : String) : Prop :=
  ∃ opened, files.entry path = .ok (.file opened)

/-! ### Sequences of judgements -/

theorem exists_of_map_eq_ok {ε α β : Type} {x : Except ε α} {f : α → β} {b : β}
    (h : x.map f = .ok b) : ∃ a, x = .ok a ∧ f a = b := by
  cases x with
  | error e => cases h
  | ok a => exact ⟨a, rfl, Except.ok.inj h⟩

/-- What every step keeps is kept by all of them; it may speak of what has been taken by then. -/
theorem of_foldlM_eq_ok {ε α β : Type} {f : β → α → Except ε β} {P : List α → β → Prop}
    (hstep : ∀ taken b a b', P taken b → f b a = .ok b' → P (taken ++ [a]) b') {xs : List α}
    {b b' : β} (taken : List α) (hb : P taken b) (h : xs.foldlM f b = .ok b') :
    P (taken ++ xs) b' := by
  induction xs generalizing b taken with
  | nil =>
    cases h
    rwa [List.append_nil]
  | cons x xs ih =>
    rw [List.foldlM_cons] at h
    obtain ⟨next, hnext, hrest⟩ := exists_of_bind_eq_ok h
    rw [List.append_cons]
    exact ih (taken ++ [x]) (hstep taken b x next hb hnext) hrest

/-! ### What is taken -/

namespace Given

variable {files : FileSystem} {g g' : Given}

/-- All paths that have been taken lead to files. -/
def Found (files : FileSystem) (g : Given) : Prop := ∀ path ∈ g.inputs, files.IsFile path

theorem Found.of_inputs_eq (hg : g.Found files) (h : g'.inputs = g.inputs) : g'.Found files := by
  rw [Found, h]
  exact hg

/-- A parameter is no input file. -/
theorem inputs_of_assign {p : Parameter} {value : String} (h : g.assign p value = .ok g') :
    g'.inputs = g.inputs := by
  cases p with
  | _ =>
    obtain ⟨taken, -, rfl⟩ := exists_of_map_eq_ok h
    rfl

/-- A flag is no input file. -/
theorem inputs_of_switchOn {f : Flag} (h : g.switchOn f = .ok g') : g'.inputs = g.inputs := by
  rw [switchOn] at h
  split at h
  · cases h
  · cases h
    rfl

/-- A path that is looked up stays what it is. -/
theorem of_checkInput {path path' : String} (h : checkInput files path = .ok path') :
    path = path' ∧ files.IsFile path' := by
  rw [checkInput] at h
  split at h
  · rename_i opened hentry
    cases h
    exact ⟨rfl, opened, hentry⟩
  · cases h
  · cases h

/-- Input files are looked up, and taken as they are. -/
theorem Found.addInputs (hg : g.Found files) {paths : List String}
    (h : g.addInputs files paths = .ok g') : g'.Found files ∧ g'.inputs = g.inputs ++ paths := by
  obtain ⟨inputs, hchecked, rfl⟩ := exists_of_map_eq_ok h
  have hall : List.Forall₂ (fun path path' => path = path' ∧ files.IsFile path') paths inputs :=
    (forall₂_of_mapM_eq_ok hchecked).imp fun path path' hpath => of_checkInput hpath
  have hsame : paths = inputs := List.forall₂_eq_eq_eq ▸ hall.imp fun path path' hpath => hpath.1
  subst hsame
  refine ⟨?_, rfl⟩
  intro path hmem
  rcases List.mem_append.1 hmem with hold | hnew
  · exact hg path hold
  · exact (List.forall₂_same.1 hall path hnew).2

/-- Without an input file a command line is not accepted. -/
theorem inputs_of_arguments {a : Arguments} (h : g.arguments = .ok a) :
    a.inputs = g.inputs ∧ a.inputs ≠ [] := by
  rw [arguments] at h
  split at h
  · cases h
  · split at h
    · cases h
    · rename_i hinputs
      cases h
      refine ⟨rfl, ?_⟩
      simpa using hinputs

end Given

/-! ### The scan -/

/-- A word that neither names anything nor has letters is plain. -/
theorem Word.eq_of_ofString_eq_plain {word text : String} (h : ofString word = .plain text) :
    text = word := by
  rw [ofString] at h
  split at h
  · cases h
  · cases h
  · cases h
    rfl

/-- The paths that are still to be judged. -/
def Open.paths : Option Open → List String
  | some (.inputs paths) => paths
  | _ => []

namespace Scan

/-- All paths that have been read. -/
def paths (s : Scan) : List String := s.given.inputs ++ Open.paths s.pending

/-- Where a scan stands that has read these words. -/
structure Took (files : FileSystem) (words : List String) (s : Scan) : Prop where
  /-- the paths that have been taken lead to files -/
  found : s.given.Found files
  /-- the paths that have been read are among the words, in their order -/
  sublist : s.paths.Sublist words

variable {files : FileSystem} {words : List String} {s s' : Scan} {g : Given}

theorem took_start (files : FileSystem) : ({} : Scan).Took files [] where
  found := by
    intro path hmem
    cases hmem
  sublist := List.Sublist.refl []

/-- A word that is no path. -/
theorem Took.skip (h : s.Took files words) (word : String) : s.Took files (words ++ [word]) :=
  ⟨h.found, h.sublist.trans (List.sublist_append_left words [word])⟩

/-- Nothing is open any more. -/
theorem Took.of_given (h : s.Took files words) (hg : g.Found files) (hinputs : g.inputs = s.paths)
    {pending : Option Open} (hpending : Open.paths pending = []) :
    Took files words ⟨g, pending⟩ where
  found := hg
  sublist := by
    rw [paths, hpending, List.append_nil, hinputs]
    exact h.sublist

/-- What is open is taken when it is judged. -/
theorem took_close (hs : s.given.Found files) (h : s.close files = .ok g) :
    g.Found files ∧ g.inputs = s.paths := by
  obtain ⟨given, pending⟩ := s
  rw [close] at h
  split at h
  · rename_i hpending
    cases h
    cases hpending
    exact ⟨hs, (List.append_nil _).symm⟩
  · cases h
  · rename_i hpending
    cases hpending
    have hinputs := Given.inputs_of_assign h
    exact ⟨hs.of_inputs_eq hinputs, hinputs.trans (List.append_nil _).symm⟩
  · rename_i hpending
    cases hpending
    exact hs.addInputs h

theorem took_enter {argument : Argument} (hs : s.Took files words)
    (h : s.enter files argument = .ok s') : s'.Took files words := by
  obtain ⟨given, hclose, h⟩ := exists_of_bind_eq_ok h
  obtain ⟨hgiven, hinputs⟩ := took_close hs.found hclose
  cases argument with
  | flag f =>
    obtain ⟨switched, hswitch, h⟩ := exists_of_bind_eq_ok h
    cases h
    have hsame := Given.inputs_of_switchOn hswitch
    exact hs.of_given (hgiven.of_inputs_eq hsame) (hsame.trans hinputs) rfl
  | parameter p =>
    cases h
    exact hs.of_given hgiven hinputs rfl
  | help => cases h

theorem took_enterWith {argument : Argument} {value : String} (hs : s.Took files words)
    (h : s.enterWith files argument value = .ok s') : s'.Took files words := by
  cases argument with
  | flag f => cases h
  | help => cases h
  | parameter p =>
    obtain ⟨given, hclose, h⟩ := exists_of_bind_eq_ok h
    obtain ⟨assigned, hassign, h⟩ := exists_of_bind_eq_ok h
    cases h
    obtain ⟨hgiven, hinputs⟩ := took_close hs.found hclose
    have hsame := Given.inputs_of_assign hassign
    exact hs.of_given (hgiven.of_inputs_eq hsame) (hsame.trans hinputs) rfl

/-- An input file is looked up later, with those that follow it. -/
theorem took_input {path : String} (hs : s.Took files words)
    (h : s.input files path = .ok s') : s'.Took files (words ++ [path]) := by
  rw [input] at h
  split at h
  · rename_i paths hpending
    cases h
    refine ⟨hs.found, ?_⟩
    have hsublist := hs.sublist
    rw [Scan.paths, hpending] at hsublist
    rw [Scan.paths, Open.paths, ← List.append_assoc]
    exact hsublist.append (List.Sublist.refl [path])
  · obtain ⟨given, hclose, h⟩ := exists_of_bind_eq_ok h
    cases h
    obtain ⟨hgiven, hinputs⟩ := took_close hs.found hclose
    refine ⟨hgiven, ?_⟩
    rw [Scan.paths, hinputs]
    exact hs.sublist.append (List.Sublist.refl [path])

/-- **A word adds no path but itself**, and no path is taken but those of files. -/
theorem took_step {word : String} (hs : s.Took files words)
    (h : s.step files word = .ok s') : s'.Took files (words ++ [word]) := by
  rw [step] at h
  split at h
  · split at h
    · cases h
    · exact (took_enter hs h).skip word
    · exact (took_enterWith hs h).skip word
  · -- the letters are read one after another, and none of them is a path
    have hletters : s'.Took files words := by
      refine of_foldlM_eq_ok (P := fun _ s => s.Took files words) ?_ [] hs h
      intro _ s letter s' hs h
      split at h
      · cases h
      · exact took_enter hs h
    exact hletters.skip word
  · rename_i text hword
    obtain rfl := Word.eq_of_ofString_eq_plain hword
    split at h
    · rename_i p hpending
      cases h
      have hsublist := hs.sublist
      rw [Scan.paths, hpending] at hsublist
      have hvalue : Took files words { s with pending := some (.parameter p (some text)) } :=
        ⟨hs.found, hsublist⟩
      exact hvalue.skip text
    · exact took_input hs h

/-- Nor does a command line. -/
theorem took_run {more : List String} (hs : s.Took files words)
    (h : s.run files more = .ok s') : s'.Took files (words ++ more) := by
  induction more generalizing s words with
  | nil =>
    cases h
    rwa [List.append_nil]
  | cons word more ih =>
    rw [run] at h
    rw [List.append_cons]
    split at h
    · refine of_foldlM_eq_ok (P := fun words s => s.Took files words) ?_ _ (hs.skip word) h
      intro words s path s' hs h
      exact took_input hs h
    · obtain ⟨next, hstep, h⟩ := exists_of_bind_eq_ok h
      exact ih (took_step hs hstep) h

end Scan

namespace Arguments

variable {files : FileSystem} {words : List String} {a : Arguments}

/-- **An accepted command line has input files**: some of its words, in their order. -/
theorem inputs_of_ofWords (h : Arguments.ofWords files words = .ok a) :
    a.inputs ≠ [] ∧ a.inputs.Sublist words ∧ ∀ path ∈ a.inputs, files.IsFile path := by
  obtain ⟨scan, hrun, h⟩ := exists_of_bind_eq_ok h
  obtain ⟨given, hclose, h⟩ := exists_of_bind_eq_ok h
  have htook := Scan.took_run (Scan.took_start files) hrun
  obtain ⟨hfound, hpaths⟩ := Scan.took_close htook.found hclose
  obtain ⟨hinputs, hne⟩ := Given.inputs_of_arguments h
  refine ⟨hne, ?_, ?_⟩
  · rw [hinputs, hpaths]
    exact htook.sublist
  · rw [hinputs]
    exact hfound

end Arguments

end SvmLight
