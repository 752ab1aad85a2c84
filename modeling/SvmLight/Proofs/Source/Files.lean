import SvmLight.Proofs.Line
import SvmLight.Proofs.Source.Memory
import SvmLight.Proofs.Text
import SvmLight.Proofs.Utf8
import SvmLight.Source.Files

/-!
# Files of text

A file that holds a text is cut into lines as octets and decoded line by line; in memory the text is
cut into lines as it is. The lines are not equal, but they are as many, and they are alike.

* `exists_first_line` — the first line of some octets is the first line of their text.
* `Follows` — a file source that stands where a source in memory stands.
* `event_alike` — hence their events are alike.
* `exists_text` — if all lines of a file are text, then all of it is.
-/

namespace SvmLight

open Utf8 (encode decode_eq_ok_iff)

/-! ### The first line -/

/-- Where there are octets, what comes before the first newline decides. -/
theorem splitLine_of_ne_nil {octets : List UInt8} (h : octets ≠ []) :
    splitLine octets =
      match octets.dropWhile (· != newline) with
      | [] => some (octets, [])
      | ending :: rest => some (octets.takeWhile (· != newline) ++ [ending], rest) := by
  cases octets with
  | nil => exact absurd rfl h
  | cons octet octets => rfl

theorem splitLine_append {octets : List UInt8} (h : newline ∉ octets) (rest : List UInt8) :
    splitLine (octets ++ newline :: rest) = some (octets ++ [newline], rest) := by
  have hending : ∀ octet ∈ (newline :: rest).head?, (octet != newline) = false := by simp
  obtain ⟨htake, hdrop⟩ := span_append (bne_of_not_mem h) hending
  have hne : octets ++ newline :: rest ≠ [] := List.append_ne_nil_of_right_ne_nil _ (by simp)
  rw [splitLine_of_ne_nil hne, hdrop, htake]

theorem splitLine_of_not_mem {octets : List UInt8} (h : newline ∉ octets) (hne : octets ≠ []) :
    splitLine octets = some (octets, []) := by
  have hdrop : octets.dropWhile (· != newline) = [] :=
    List.dropWhile_eq_nil_iff.2 (bne_of_not_mem h)
  rw [splitLine_of_ne_nil hne, hdrop]

theorem splitLine_eq_none {octets : List UInt8} (h : splitLine octets = none) : octets = [] := by
  by_contra hne
  rw [splitLine_of_ne_nil hne] at h
  cases hdrop : octets.dropWhile (· != newline) with
  | nil => simp [hdrop] at h
  | cons ending rest => simp [hdrop] at h

/-- Ends a line, or stands at its end. -/
abbrev isLineEnd (c : Char) : Bool := c == '\n' || c == '\r'

/-- The first line of the octets of a text is the first line of the text, up to carriage returns at
its end; and the octets after it are those of the text after it. -/
theorem exists_first_line {t : Text} (hne : t ≠ []) :
    ∃ piece rest line, splitLine (encode t) = some (encode piece, encode rest) ∧
      t.lines = line :: rest.lines ∧ Line.Alike (piece.dropEndWhile isLineEnd) line := by
  have hreturn : ∀ {piece : Text}, '\n' ∉ piece → ∀ c ∈ piece, isLineEnd c = true → c = '\r' := by
    intro piece hpiece c hmem hc
    rcases Bool.or_eq_true_iff.1 hc with hnewline | hreturn
    · exact absurd (eq_of_beq hnewline ▸ hmem) hpiece
    · exact eq_of_beq hreturn
  by_cases hmem : '\n' ∈ t
  · -- the octets are cut behind the newline, and the text in front of it
    obtain ⟨piece, rest, rfl, hpiece⟩ := List.eq_append_cons_of_mem hmem
    refine ⟨piece ++ ['\n'], rest, Text.dropCarriageReturn piece, ?_, ?_, ?_⟩
    · have hoctets : newline ∉ encode piece := fun h => hpiece (Utf8.newline_mem_encode h)
      rw [Utf8.encode_append, Utf8.encode_append]
      exact splitLine_append hoctets (encode rest)
    · exact Text.lines_append_newline hpiece rest
    · rw [Text.dropEndWhile_append_singleton rfl]
      exact (Line.alike_dropEndWhile piece (hreturn hpiece)).trans
        (Line.alike_dropCarriageReturn piece).symm
  · -- the last line: in memory it keeps all its carriage returns
    refine ⟨t, [], t, ?_, ?_, Line.alike_dropEndWhile t (hreturn hmem)⟩
    · have hoctets : newline ∉ encode t := fun h => hmem (Utf8.newline_mem_encode h)
      exact splitLine_of_not_mem hoctets fun h => hne (Utf8.encode_eq_nil h)
    · rw [Text.lines_of_not_mem hmem hne, Text.lines_nil]

/-! ### Alike events -/

/-- What is alike in a file and in memory: lines that are alike, with the same number, the one in
the file and the other nowhere; and the ends. -/
inductive Event.Alike (path : String) : Event → Event → Prop where
  /-- two lines -/
  | line {line line' : Text} (number : Nat) (alike : Line.Alike line line') :
      Alike path (.ok (some ⟨line, ⟨number, some path⟩⟩)) (.ok (some ⟨line', ⟨number, none⟩⟩))
  /-- two ends -/
  | end : Alike path (.ok none) (.ok none)

theorem Event.Alike.isComment_eq {path : String} {e e' : Event} (h : Alike path e e') :
    isComment e = isComment e' := by
  cases h with
  | line number alike => exact alike.isComment
  | «end» => rfl

/-- No error is alike to anything. -/
theorem Event.Alike.ne_error {path : String} {e e' : Event} (h : Alike path e e')
    (cause : IoError) : e ≠ .error cause := by
  cases h with
  | line number alike => simp
  | «end» => simp

namespace FileLines

variable {files : FileSystem} {paths waiting : List String} {path : String}

theorem decodeLine_encode (number : Nat) (piece : Text) :
    decodeLine path number (encode piece) =
      .ok (some ⟨piece.dropEndWhile isLineEnd, ⟨number, some path⟩⟩) := by
  rw [decodeLine, decode_eq_ok_iff.2 rfl]

/-- A line of an open file. -/
theorem next?_line {octets line rest : List UInt8} (count : Nat)
    (h : splitLine octets = some (line, rest)) :
    (⟨path, count, ⟨octets, none⟩⟩ : OpenFile).next? =
      some (decodeLine path (count + 1) line, ⟨path, count + 1, ⟨rest, none⟩⟩) := by
  simp only [OpenFile.next?, Content.readLine, h]

/-- Opening a file is no request of its own: the first request opens it and reads its first line. -/
theorem next_opened {content : Content} (h : files.opened path = .ok content) :
    LineSource.next (⟨files, paths, path :: waiting, none⟩ : FileLines) =
      LineSource.next (⟨files, paths, waiting, some ⟨path, 0, content⟩⟩ : FileLines) := by
  simp only [LineSource.next, next, advance, openNext, h]
  cases (OpenFile.mk path 0 content).next? with
  | none => rfl
  | some step => rfl

theorem event_ofPaths {content : Content} (h : files.opened path = .ok content) (n : Nat) :
    LineSource.event (ofPaths files [path]) n =
      LineSource.event (⟨files, [path], [], some ⟨path, 0, content⟩⟩ : FileLines) n :=
  LineSource.event_congr (next_opened h) n

/-- A file source that stands where a source in memory stands. -/
inductive Follows (path : String) : FileLines → MemoryLines → Prop where
  /-- the file is open, and as many lines have been read -/
  | opened {files : FileSystem} {paths : List String} {m : MemoryLines} {count : Nat} {t : Text}
      (position : m.position = count) (left : m.left = t.lines) :
      Follows path ⟨files, paths, [], some ⟨path, count, ⟨encode t, none⟩⟩⟩ m
  /-- the file has been read to its end -/
  | closed {files : FileSystem} {paths : List String} {m : MemoryLines} (left : m.left = []) :
      Follows path ⟨files, paths, [], none⟩ m

/-- **One step of the simulation.** -/
theorem Follows.next {f : FileLines} {m : MemoryLines} (h : Follows path f m) :
    Event.Alike path f.next.1 m.next.1 ∧ Follows path f.next.2 m.next.2 := by
  cases h with
  | closed left =>
    rw [MemoryLines.next_of_left_nil left]
    exact ⟨.end, .closed left⟩
  | @opened files paths m count t position left =>
    subst position
    by_cases hne : t = []
    · subst hne
      rw [MemoryLines.next_of_left_nil left]
      exact ⟨.end, .closed left⟩
    · obtain ⟨piece, rest, line, hsplit, hlines, halike⟩ := exists_first_line hne
      obtain ⟨hnext, hleft⟩ := MemoryLines.next_of_left_cons (left.trans hlines)
      simp only [FileLines.next, next?_line _ hsplit, decodeLine_encode, hnext]
      exact ⟨.line _ halike, .opened rfl hleft⟩

/-- **A file and its text have like events.** -/
theorem event_alike {t : Text} (h : files.opened path = .ok ⟨encode t, none⟩) (n : Nat) :
    Event.Alike path (LineSource.event (ofPaths files [path]) n)
      (LineSource.event (MemoryLines.ofText t) n) := by
  have hstart : Follows path (⟨files, [path], [], some ⟨path, 0, ⟨encode t, none⟩⟩⟩ : FileLines)
      (MemoryLines.ofText t) := .opened rfl rfl
  rw [event_ofPaths h]
  refine LineSource.event_of_simulation ?_ ?_ hstart n
  · intro f m hfollows
    exact hfollows.next
  · intro e e' halike
    exact halike.isComment_eq

/-! ### Files that are not text -/

/-- A line that is read without an error is text. -/
theorem exists_text_of_decodeLine {number : Nat} {octets : List UInt8}
    (h : ∀ e, decodeLine path number octets ≠ .error e) : ∃ t, octets = encode t := by
  cases hdecode : Utf8.decode octets with
  | ok t => exact ⟨t, decode_eq_ok_iff.1 hdecode⟩
  | error defect =>
    rw [decodeLine, hdecode] at h
    exact absurd rfl (h _)

/-- An open file is read line by line; what is left of it is text, if each line is. -/
theorem exists_text_of_opened (n : Nat) :
    ∀ (octets : List UInt8), octets.length ≤ n → ∀ (count : Nat),
      LineSource.ErrorFree (⟨files, paths, [], some ⟨path, count, ⟨octets, none⟩⟩⟩ : FileLines) →
        ∃ t, octets = encode t := by
  induction n with
  | zero =>
    intro octets hlen count _
    exact ⟨[], List.eq_nil_of_length_eq_zero (Nat.le_zero.1 hlen)⟩
  | succ n ih =>
    intro octets hlen count hfree
    cases hsplit : splitLine octets with
    | none => exact ⟨[], splitLine_eq_none hsplit⟩
    | some parts =>
      obtain ⟨piece, rest⟩ := parts
      obtain ⟨rfl, hne⟩ := splitLine_eq_some hsplit
      have hlt := length_lt_of_splitLine hsplit
      have hnext : LineSource.next
          (⟨files, paths, [], some ⟨path, count, ⟨piece ++ rest, none⟩⟩⟩ : FileLines) =
          (decodeLine path (count + 1) piece,
            ⟨files, paths, [], some ⟨path, count + 1, ⟨rest, none⟩⟩⟩) := by
        simp only [LineSource.next, FileLines.next, next?_line _ hsplit]
      -- the line is text by itself, and so is what is left behind it
      have hstep := hfree.next
      rw [hnext] at hstep
      obtain ⟨t, rfl⟩ := exists_text_of_decodeLine hstep.1
      obtain ⟨u, rfl⟩ := ih rest (by omega) (count + 1) hstep.2
      exact ⟨t ++ u, (Utf8.encode_append t u).symm⟩

/-- **If all lines of a file are text, then all of it is.** -/
theorem exists_text {octets : List UInt8} (hopened : files.opened path = .ok ⟨octets, none⟩)
    (h : LineSource.ErrorFree (ofPaths files [path])) : ∃ t, octets = encode t := by
  have hfree : LineSource.ErrorFree
      (⟨files, [path], [], some ⟨path, 0, ⟨octets, none⟩⟩⟩ : FileLines) := by
    intro n e
    rw [← event_ofPaths hopened]
    exact h n e
  exact exists_text_of_opened _ octets (Nat.le_refl _) 0 hfree

end FileLines

end SvmLight
