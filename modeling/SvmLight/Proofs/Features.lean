import Mathlib.Data.List.Induction
import SvmLight.Proofs.Decode
import SvmLight.Proofs.Double.Grammar
import SvmLight.Proofs.Index
import SvmLight.Proofs.Text

/-!
# Rows of features

A token has a **key**, which is what stands before its first mark. A **feature** is a token whose
key is an index below the number of features, with a literal behind the mark. A key that begins
with `qid` makes a token a **query**, which is skipped.

* `Features.entry_eq_ok_iff`, `Features.entry_eq_error_iff` — a token is decoded if it is a feature,
  and its error is its fault.
* `Features.decode_concat` — what one more token does to a row.
* `Features.decode_placed` — **rows of features**: which tokens make a row, what stands at each of
  its positions, and which fault is reported if they make none.
-/

namespace SvmLight

namespace Features

/-! ### Tokens -/

/-- A token, its key, and what stands behind the mark. -/
inductive Parts : Text → Text → Option Text → Prop where
  /-- no mark, and all is the key -/
  | key {key : Text} (not_mem : mark ∉ key) : Parts key key none
  /-- the first mark ends the key -/
  | pair {key text : Text} (not_mem : mark ∉ key) : Parts (key ++ mark :: text) key (some text)

/-- A token that tells the query. -/
inductive IsQuery : Text → Prop where
  /-- its key begins so -/
  | qid {token key : Text} {text? : Option Text} (parts : Parts token key text?)
      (qid : ['q', 'i', 'd'] <+: key) : IsQuery token

/-- A token that gives the literal of the feature at a position. -/
inductive IsFeature (s : Settings) : Text → Nat → Text → Prop where
  /-- its key is the index of the position -/
  | feature {token key literal : Text} {position : Nat} (parts : Parts token key (some literal))
      (index : Numeral.IsIndex key (s.indexBase.written position))
      (position_lt : position < s.numFeatures) (isLiteral : Double.IsLiteral literal) :
      IsFeature s token position literal

/-- What is wrong with a token that should be a feature. -/
inductive Fault (s : Settings) (token : Text) : DecodeError → Prop where
  /-- there is a fault in its index -/
  | index {key : Text} {text? : Option Text} {e : DecodeError} (parts : Parts token key text?)
      (fault : s.indexBase.Fault .feature s.numFeatures token key e) : Fault s token e
  /-- the index has none, but there is no literal -/
  | value {key : Text} {text? : Option Text} {position : Nat} (parts : Parts token key text?)
      (index : Numeral.IsIndex key (s.indexBase.written position))
      (position_lt : position < s.numFeatures)
      (not_literal : ∀ text, text? = some text → ¬Double.IsLiteral text) :
      Fault s token (.malformedValue token)

variable {s : Settings} {token key : Text} {text? : Option Text}

theorem Parts.breakAt_eq (h : Parts token key text?) : token.breakAt mark = (key, text?) := by
  cases h with
  | key not_mem => exact Text.breakAt_of_not_mem not_mem
  | pair not_mem => exact Text.breakAt_append not_mem _

/-- Every token has parts. -/
theorem parts_breakAt (token : Text) :
    Parts token (token.breakAt mark).1 (token.breakAt mark).2 := by
  by_cases hmem : mark ∈ token
  · obtain ⟨key, text, rfl, hkey⟩ := List.eq_append_cons_of_mem hmem
    rw [Text.breakAt_append hkey]
    exact .pair hkey
  · rw [Text.breakAt_of_not_mem hmem]
    exact .key hmem

theorem isQuery_iff : isQuery token = true ↔ IsQuery token := by
  rw [isQuery, List.isPrefixOf_iff_prefix]
  constructor
  · exact .qid (parts_breakAt token)
  · intro h
    cases h with
    | qid parts qid => rwa [parts.breakAt_eq]

/-- A token that begins with an index in digits: no digit is a mark. -/
theorem parts_indexed (n : Nat) (text : Text) :
    Parts (Numeral.natural n ++ mark :: text) (Numeral.natural n) (some text) := by
  refine .pair ?_
  intro hmem
  exact absurd (Numeral.isDigit_of_mem_natural hmem) (by decide)

/-- Nor is one a letter. -/
theorem isQuery_indexed (n : Nat) (text : Text) :
    isQuery (Numeral.natural n ++ mark :: text) = false := by
  obtain ⟨c, digits, hdigits, hc⟩ := Numeral.exists_natural_eq_cons n
  have hq : ('q' == c) = false := by
    apply beq_eq_false_iff_ne.2
    rintro rfl
    exact absurd hc (by decide)
  rw [isQuery, (parts_indexed n text).breakAt_eq, hdigits, List.isPrefixOf_cons_cons, hq,
    Bool.false_and]

/-- A token is decoded in two steps: its index first, and then the value. -/
theorem entry_eq (h : Parts token key text?) :
    entry s token =
      match s.indexBase.decode .feature s.numFeatures token key with
      | .error e => .error e
      | .ok position =>
        match text?.bind Double.ofText? with
        | some value => .ok (position, value)
        | none => .error (.malformedValue token) := by
  rewrite [entry, h.breakAt_eq]
  rfl

/-- **The features, and nothing else, are decoded.** -/
theorem entry_eq_ok_iff {position : Nat} {value : Double} :
    entry s token = .ok (position, value) ↔
      ∃ literal, IsFeature s token position literal ∧ Double.ofText? literal = some value := by
  constructor
  · intro h
    have hparts := parts_breakAt token
    rw [entry_eq hparts] at h
    generalize (token.breakAt mark).1 = key at hparts h
    generalize (token.breakAt mark).2 = text? at hparts h
    split at h
    · cases h
    · rename_i position' hindex
      obtain ⟨hindex, hlt⟩ := IndexBase.decode_eq_ok_iff.1 hindex
      split at h
      · rename_i value' hvalue
        cases h
        obtain ⟨literal, rfl, hliteral⟩ := Option.bind_eq_some_iff.1 hvalue
        have hgrammar := Double.isSome_ofText?_iff.1 (Option.isSome_of_eq_some hliteral)
        exact ⟨literal, .feature hparts hindex hlt hgrammar, hliteral⟩
      · cases h
  · rintro ⟨literal, hfeature, hvalue⟩
    cases hfeature with
    | feature parts index position_lt _ =>
      rw [entry_eq parts, IndexBase.decode_eq_ok_iff.2 ⟨index, position_lt⟩, Option.bind_some,
        hvalue]

/-- **The error of a token is its fault.** -/
theorem entry_eq_error_iff {e : DecodeError} : entry s token = .error e ↔ Fault s token e := by
  constructor
  · intro h
    have hparts := parts_breakAt token
    rw [entry_eq hparts] at h
    generalize (token.breakAt mark).1 = key at hparts h
    generalize (token.breakAt mark).2 = text? at hparts h
    split at h
    · rename_i e' hindex
      cases h
      exact .index hparts (IndexBase.decode_eq_error_iff.1 hindex)
    · rename_i position hindex
      obtain ⟨hindex, hlt⟩ := IndexBase.decode_eq_ok_iff.1 hindex
      split at h
      · cases h
      · rename_i hvalue
        cases h
        refine .value hparts hindex hlt ?_
        rintro text rfl hliteral
        rw [Option.bind_some] at hvalue
        rw [← Double.isSome_ofText?_iff, hvalue] at hliteral
        cases hliteral
  · intro h
    cases h with
    | index parts fault => rw [entry_eq parts, IndexBase.decode_eq_error_iff.2 fault]
    | @value key text? position parts index position_lt not_literal =>
      rw [entry_eq parts, IndexBase.decode_eq_ok_iff.2 ⟨index, position_lt⟩]
      dsimp only
      split
      · rename_i value hvalue
        obtain ⟨text, rfl, htext⟩ := Option.bind_eq_some_iff.1 hvalue
        have hliteral := Double.isSome_ofText?_iff.1 (Option.isSome_of_eq_some htext)
        exact absurd hliteral (not_literal text rfl)
      · rfl

/-- A literal has a value. -/
theorem IsFeature.exists_entry {position : Nat} {literal : Text}
    (h : IsFeature s token position literal) :
    ∃ value, Double.ofText? literal = some value ∧ entry s token = .ok (position, value) := by
  cases h with
  | feature parts index position_lt isLiteral =>
    obtain ⟨value, hvalue⟩ := Option.isSome_iff_exists.1 (Double.isSome_ofText?_iff.2 isLiteral)
    have hfeature := IsFeature.feature parts index position_lt isLiteral
    exact ⟨value, hvalue, entry_eq_ok_iff.2 ⟨literal, hfeature, hvalue⟩⟩

/-- No query is a feature: a key does not begin with a letter and with a digit or a sign. -/
theorem IsFeature.not_isQuery {position : Nat} {literal : Text}
    (h : IsFeature s token position literal) : ¬IsQuery token := by
  intro hquery
  cases hquery with
  | qid parts qid =>
    cases h with
    | feature parts' index _ _ =>
      have hkey := parts.breakAt_eq.symm.trans parts'.breakAt_eq
      cases hkey
      obtain ⟨rest, rfl⟩ := qid
      cases index with
      | digits digits _ => exact absurd (digits.digit 'q' List.mem_cons_self) (by decide)

/-! ### Rows -/

/-- A token that a row can be made with. -/
def Serves (s : Settings) (token : Text) : Prop :=
  IsQuery token ∨ ∃ position literal, IsFeature s token position literal

/-- The value that stands at a position of a row made of some tokens. -/
inductive ValueAt (s : Settings) (tokens : List Text) (position : Nat) : Double → Prop where
  /-- the last token for the position gives it -/
  | last {front rest : List Text} {token literal : Text} {value : Double}
      (tokens_eq : tokens = front ++ token :: rest)
      (isFeature : IsFeature s token position literal)
      (value_eq : Double.ofText? literal = some value)
      (last : ∀ token' ∈ rest, ∀ literal', ¬IsFeature s token' position literal') :
      ValueAt s tokens position value
  /-- there is none, and the value is positive zero -/
  | zero (none : ∀ token ∈ tokens, ∀ literal, ¬IsFeature s token position literal) :
      ValueAt s tokens position .zero

/-- The first token that a row cannot be made with, and its fault. -/
inductive FirstFault (s : Settings) : List Text → DecodeError → Prop where
  /-- all tokens in front of it serve -/
  | first {front rest : List Text} {token : Text} {e : DecodeError}
      (serves : ∀ token' ∈ front, Serves s token') (not_query : ¬IsQuery token)
      (fault : Fault s token e) : FirstFault s (front ++ token :: rest) e

theorem scatter_concat {α : Type} (size : Nat) (fill : α) (entries : List (Nat × α))
    (entry : Nat × α) :
    scatter size fill (entries ++ [entry]) = (scatter size fill entries).set entry.1 entry.2 := by
  rw [scatter, scatter, List.foldl_append, List.foldl_cons, List.foldl_nil,
    Array.toList_setIfInBounds]

theorem decode_eq (hs : s.numFeatures < 2 ^ 60) (tokens : List Text) :
    decode s tokens =
      (Outcome.ofExcept ((tokens.filter (!isQuery ·)).mapM (entry s)) >>= fun entries =>
        .ok (scatter s.numFeatures .zero entries)) := by
  rw [decode, Settings.reserve_features hs]
  rfl

/-- Without tokens, all values are zero. -/
theorem decode_nil (hs : s.numFeatures < 2 ^ 60) :
    decode s [] = .ok (List.replicate s.numFeatures .zero) := by
  rw [decode_eq hs]
  exact congrArg Outcome.ok Array.toList_replicate

/-- A query is skipped wherever it stands. -/
theorem decode_query (hs : s.numFeatures < 2 ^ 60) (front : List Text) (h : IsQuery token)
    (rest : List Text) : decode s (front ++ token :: rest) = decode s (front ++ rest) := by
  have hskip : (token :: rest).filter (!isQuery ·) = rest.filter (!isQuery ·) := by
    simp [isQuery_iff.2 h]
  rw [decode_eq hs, decode_eq hs, List.filter_append, List.filter_append, hskip]

/-- **One more token** that is no query sets the value at its position, or is the first fault. -/
theorem decode_concat (hs : s.numFeatures < 2 ^ 60) (tokens : List Text) (h : ¬IsQuery token) :
    decode s (tokens ++ [token]) =
      (decode s tokens >>= fun row =>
        Outcome.ofExcept (entry s token) >>= fun entry => .ok (row.set entry.1 entry.2)) := by
  rw [← isQuery_iff] at h
  have hkeep : [token].filter (!isQuery ·) = [token] := by
    simp [h]
  rw [decode_eq hs, decode_eq hs, List.filter_append, hkeep, List.mapM_append, List.mapM_cons,
    List.mapM_nil]
  rcases (tokens.filter (!isQuery ·)).mapM (entry s) with e | entries
  · rfl
  · rcases entry s token with e | entry
    · rfl
    · exact congrArg Outcome.ok (scatter_concat s.numFeatures .zero entries entry)

/-! ### What stands in a row -/

/-- A row that is made of some tokens. -/
structure IsRow (s : Settings) (tokens : List Text) (row : List Double) : Prop where
  /-- there is a value for every feature -/
  length_eq : row.length = s.numFeatures
  /-- it is the one that the tokens give -/
  value : ∀ {position value}, row[position]? = some value → ValueAt s tokens position value

variable {tokens : List Text} {row : List Double}

/-- A token that is no feature for a position changes nothing there. -/
theorem ValueAt.concat {position : Nat} {value : Double} (h : ValueAt s tokens position value)
    (hnot : ∀ literal, ¬IsFeature s token position literal) :
    ValueAt s (tokens ++ [token]) position value := by
  cases h with
  | @last front rest token' literal _ tokens_eq isFeature value_eq last =>
    have hsplit : tokens ++ [token] = front ++ token' :: (rest ++ [token]) := by
      rw [tokens_eq, List.append_assoc, List.cons_append]
    refine .last hsplit isFeature value_eq ?_
    rw [List.forall_mem_append]
    exact ⟨last, List.forall_mem_singleton.2 hnot⟩
  | zero none =>
    apply ValueAt.zero
    rw [List.forall_mem_append]
    exact ⟨none, List.forall_mem_singleton.2 hnot⟩

theorem isRow_replicate (s : Settings) : IsRow s [] (List.replicate s.numFeatures .zero) where
  length_eq := List.length_replicate
  value := by
    intro position value h
    rw [List.getElem?_replicate] at h
    split at h
    · cases h
      apply ValueAt.zero
      simp
    · cases h

theorem IsRow.query (h : IsRow s tokens row) (hquery : IsQuery token) :
    IsRow s (tokens ++ [token]) row where
  length_eq := h.length_eq
  value := fun hvalue => (h.value hvalue).concat fun _ hfeature => hfeature.not_isQuery hquery

theorem IsRow.feature (h : IsRow s tokens row) {position : Nat} {literal : Text} {value : Double}
    (hfeature : IsFeature s token position literal) (hvalue : Double.ofText? literal = some value) :
    IsRow s (tokens ++ [token]) (row.set position value) where
  length_eq := by
    rw [List.length_set, h.length_eq]
  value := by
    intro position' value' hget
    rw [List.getElem?_set] at hget
    split at hget
    · rename_i heq
      subst heq
      split at hget
      · cases hget
        refine .last rfl hfeature hvalue ?_
        simp
      · cases hget
    · rename_i hne
      refine (h.value hget).concat ?_
      intro literal' hfeature'
      -- the token has one key, and the key one index
      obtain ⟨_, _, hentry⟩ := hfeature.exists_entry
      obtain ⟨_, _, hentry'⟩ := hfeature'.exists_entry
      rw [hentry] at hentry'
      cases hentry'
      exact hne rfl

/-! ### Rows and faults -/

/-- No fault is found in a token that a row can be made with. -/
theorem Serves.not_fault {e : DecodeError} (h : Serves s token) (hquery : ¬IsQuery token) :
    ¬Fault s token e := by
  intro hfault
  obtain ⟨position, literal, hfeature⟩ := h.resolve_left hquery
  obtain ⟨value, -, hentry⟩ := hfeature.exists_entry
  rw [entry_eq_error_iff.2 hfault] at hentry
  cases hentry

theorem FirstFault.not_serves {e : DecodeError} (h : FirstFault s tokens e) :
    ¬∀ token ∈ tokens, Serves s token := by
  intro hserves
  cases h with
  | first _ not_query fault =>
    have htoken := hserves _ (List.mem_append_right _ List.mem_cons_self)
    exact htoken.not_fault not_query fault

theorem FirstFault.append {e : DecodeError} (h : FirstFault s tokens e) (rest : List Text) :
    FirstFault s (tokens ++ rest) e := by
  cases h with
  | first serves not_query fault =>
    rw [List.append_assoc, List.cons_append]
    exact .first serves not_query fault

/-- **Tokens make a row, or one of them is the first fault.** The tokens are taken one by one, and
what has been placed by then is the row of the tokens in front. -/
theorem decode_cases (hs : s.numFeatures < 2 ^ 60) (tokens : List Text) :
    (∃ row, decode s tokens = .ok row ∧ IsRow s tokens row ∧ ∀ token ∈ tokens, Serves s token) ∨
      ∃ e, decode s tokens = .error e ∧ FirstFault s tokens e := by
  induction tokens using List.reverseRecOn with
  | nil =>
    refine .inl ⟨_, decode_nil hs, isRow_replicate s, ?_⟩
    simp
  | append_singleton tokens token ih =>
    by_cases hquery : IsQuery token
    · rw [decode_query hs tokens hquery, List.append_nil]
      rcases ih with ⟨row, hrow, hisRow, hserves⟩ | ⟨e, he, hfault⟩
      · refine .inl ⟨row, hrow, hisRow.query hquery, ?_⟩
        rw [List.forall_mem_append]
        exact ⟨hserves, List.forall_mem_singleton.2 (.inl hquery)⟩
      · exact .inr ⟨e, he, hfault.append _⟩
    · rw [decode_concat hs tokens hquery]
      rcases ih with ⟨row, hrow, hisRow, hserves⟩ | ⟨e, he, hfault⟩
      · rw [hrow, Outcome.ok_bind]
        rcases hentry : entry s token with e | ⟨position, value⟩
        · exact .inr ⟨e, rfl, .first hserves hquery (entry_eq_error_iff.1 hentry)⟩
        · obtain ⟨literal, hfeature, hvalue⟩ := entry_eq_ok_iff.1 hentry
          refine .inl ⟨_, rfl, hisRow.feature hfeature hvalue, ?_⟩
          rw [List.forall_mem_append]
          exact ⟨hserves, List.forall_mem_singleton.2 (.inr ⟨position, literal, hfeature⟩)⟩
      · rw [he, Outcome.error_bind]
        exact .inr ⟨e, rfl, hfault.append _⟩

theorem decode_append_error (hs : s.numFeatures < 2 ^ 60) {e : DecodeError}
    (h : decode s tokens = .error e) (rest : List Text) : decode s (tokens ++ rest) = .error e := by
  induction rest using List.reverseRecOn with
  | nil => rw [List.append_nil, h]
  | append_singleton rest token ih =>
    rw [← List.append_assoc]
    by_cases hquery : IsQuery token
    · rw [decode_query hs _ hquery, List.append_nil, ih]
    · rw [decode_concat hs _ hquery, ih, Outcome.error_bind]

/-- The first fault is reported, whatever comes after it. -/
theorem FirstFault.decode_eq (hs : s.numFeatures < 2 ^ 60) {e : DecodeError}
    (h : FirstFault s tokens e) : decode s tokens = .error e := by
  cases h with
  | @first front rest token _ serves not_query fault =>
    rcases decode_cases hs front with ⟨row, hrow, -, -⟩ | ⟨e', -, hfault⟩
    · have hdecode : decode s (front ++ [token]) = .error e := by
        rw [decode_concat hs front not_query, hrow, entry_eq_error_iff.2 fault]
        rfl
      rw [List.append_cons]
      exact decode_append_error hs hdecode rest
    · exact absurd serves hfault.not_serves

theorem decode_eq_error_iff (hs : s.numFeatures < 2 ^ 60) {e : DecodeError} :
    decode s tokens = .error e ↔ FirstFault s tokens e := by
  refine ⟨?_, FirstFault.decode_eq hs⟩
  intro h
  rcases decode_cases hs tokens with ⟨row, hrow, -, -⟩ | ⟨e', he, hfault⟩
  · rw [h] at hrow
    cases hrow
  · rw [h] at he
    cases he
    exact hfault

/-- What is decoded is a row of the tokens, all of which serve. -/
theorem of_decode_eq_ok (hs : s.numFeatures < 2 ^ 60) (h : decode s tokens = .ok row) :
    IsRow s tokens row ∧ ∀ token ∈ tokens, Serves s token := by
  rcases decode_cases hs tokens with ⟨row', hrow, hisRow, hserves⟩ | ⟨e, he, -⟩
  · rw [h] at hrow
    cases hrow
    exact ⟨hisRow, hserves⟩
  · rw [h] at he
    cases he

/-- Tokens that serve make a row. -/
theorem exists_decode_eq_ok (hs : s.numFeatures < 2 ^ 60) (h : ∀ token ∈ tokens, Serves s token) :
    ∃ row, decode s tokens = .ok row := by
  rcases decode_cases hs tokens with ⟨row, hrow, -, -⟩ | ⟨e, -, hfault⟩
  · exact ⟨row, hrow⟩
  · exact absurd h hfault.not_serves

/-! ### The order of the tokens -/

/-- No two tokens are for one position. -/
def Distinct (s : Settings) (tokens : List Text) : Prop :=
  tokens.Pairwise fun token token' =>
    ∀ position literal literal',
      IsFeature s token position literal → ¬IsFeature s token' position literal'

/-- Of tokens for different positions, each gives the value at its own. -/
theorem ValueAt.eq_of_mem {position : Nat} {literal : Text} {value value' : Double}
    (h : ValueAt s tokens position value) (hdistinct : Distinct s tokens) (hmem : token ∈ tokens)
    (hfeature : IsFeature s token position literal)
    (hvalue : Double.ofText? literal = some value') : value = value' := by
  cases h with
  | last tokens_eq isFeature value_eq last =>
    subst tokens_eq
    obtain ⟨-, -, hfront⟩ := List.pairwise_append.1 hdistinct
    rcases List.mem_append.1 hmem with hmem | hmem
    · exact absurd isFeature (hfront _ hmem _ List.mem_cons_self _ _ _ hfeature)
    · rcases List.mem_cons.1 hmem with rfl | hmem
      · have hentry := entry_eq_ok_iff.2 ⟨_, isFeature, value_eq⟩
        rw [entry_eq_ok_iff.2 ⟨_, hfeature, hvalue⟩] at hentry
        cases hentry
        rfl
      · exact absurd hfeature (last _ hmem _)
  | zero none => exact absurd hfeature (none _ hmem _)

theorem ValueAt.eq_of_perm {tokens' : List Text} {position : Nat} {value value' : Double}
    (h : ValueAt s tokens position value) (hdistinct : Distinct s tokens)
    (hperm : tokens.Perm tokens') (h' : ValueAt s tokens' position value') : value = value' := by
  cases h' with
  | @last _ _ token _ _ tokens_eq isFeature value_eq _ =>
    have hmem : token ∈ tokens := by
      rw [hperm.mem_iff, tokens_eq]
      exact List.mem_append_right _ List.mem_cons_self
    exact h.eq_of_mem hdistinct hmem isFeature value_eq
  | zero none =>
    cases h with
    | @last _ _ token _ _ tokens_eq isFeature _ _ =>
      have hmem : token ∈ tokens' := by
        rw [← hperm.mem_iff, tokens_eq]
        exact List.mem_append_right _ List.mem_cons_self
      exact absurd isFeature (none _ hmem _)
    | zero _ => rfl

/-- Tokens for different positions make the same row in any order. -/
theorem IsRow.eq_of_perm {tokens' : List Text} {row' : List Double} (h : IsRow s tokens row)
    (hdistinct : Distinct s tokens) (hperm : tokens.Perm tokens') (h' : IsRow s tokens' row') :
    row = row' := by
  apply List.ext_getElem?
  intro position
  have hlength : row.length = row'.length := h.length_eq.trans h'.length_eq.symm
  cases hvalue : row[position]? with
  | none =>
    rw [List.getElem?_eq_none_iff, hlength] at hvalue
    exact (List.getElem?_eq_none_iff.2 hvalue).symm
  | some value =>
    obtain ⟨hlt, -⟩ := List.getElem?_eq_some_iff.1 hvalue
    rw [hlength] at hlt
    have hvalue' := List.getElem?_eq_getElem hlt
    have heq := (h.value hvalue).eq_of_perm hdistinct hperm (h'.value hvalue')
    rw [hvalue', heq]

/-- **The order of tokens for different positions does not matter.** -/
theorem decode_perm (hs : s.numFeatures < 2 ^ 60) {tokens' : List Text}
    (hperm : tokens.Perm tokens') (hdistinct : Distinct s tokens) (h : decode s tokens = .ok row) :
    decode s tokens' = .ok row := by
  obtain ⟨hisRow, hserves⟩ := of_decode_eq_ok hs h
  obtain ⟨row', hrow'⟩ : ∃ row', decode s tokens' = .ok row' :=
    exists_decode_eq_ok hs fun token hmem => hserves token (hperm.mem_iff.2 hmem)
  obtain ⟨hisRow', -⟩ := of_decode_eq_ok hs hrow'
  rw [hrow', hisRow.eq_of_perm hdistinct hperm hisRow']

/-- **Rows of features.** Tokens make a row if and only if each is a query or a feature. Then the
row has a value for every feature: the one of the last token for it, or positive zero. Else the
fault of the first other token is reported. Queries can be put anywhere or left out, and tokens for
different positions can be put in any order. -/
theorem decode_placed (hs : s.numFeatures < 2 ^ 60) (tokens : List Text) :
    ((∃ row, decode s tokens = .ok row) ↔ ∀ token ∈ tokens, Serves s token) ∧
      (∀ row, decode s tokens = .ok row → IsRow s tokens row) ∧
      (∀ e, decode s tokens = .error e ↔ FirstFault s tokens e) ∧
      decode s tokens ≠ .oversize ∧
      (∀ front token rest, tokens = front ++ token :: rest → IsQuery token →
        decode s (front ++ rest) = decode s tokens) ∧
      ∀ tokens' row, tokens.Perm tokens' → Distinct s tokens → decode s tokens = .ok row →
        decode s tokens' = .ok row := by
  refine ⟨⟨?_, exists_decode_eq_ok hs⟩, ?_, fun e => decode_eq_error_iff hs, ?_, ?_, ?_⟩
  · rintro ⟨row, hrow⟩
    exact (of_decode_eq_ok hs hrow).2
  · intro row hrow
    exact (of_decode_eq_ok hs hrow).1
  · rcases decode_cases hs tokens with ⟨row, hrow, -, -⟩ | ⟨e, he, -⟩
    · simp [hrow]
    · simp [he]
  · rintro front token rest rfl hquery
    exact (decode_query hs front hquery rest).symm
  · intro tokens' row hperm hdistinct hrow
    exact decode_perm hs hperm hdistinct hrow

/-- Indices count from one. The third feature is given twice, and the second not at all; then comes
a fourth one, which there is not. -/
theorem decode_placed_repeated :
    let s : Settings := { Settings.plain 3 with indexBase := .one }
    let tokens := ["3:inf".toList, "qid:x".toList, "+03:nan".toList, "1:-inf".toList]
    s.numFeatures < 2 ^ 60 ∧ (∀ token ∈ tokens, Serves s token) ∧
      IsRow s tokens [.signed true .infinity, .zero, .nan] ∧
      FirstFault s (tokens ++ ["4:inf".toList, "x".toList]) (.indexOutOfRange .feature 3 3) := by
  intro s tokens
  have hs : s.numFeatures < 2 ^ 60 := by decide
  obtain ⟨hserves, hisRow, -⟩ := decode_placed hs tokens
  obtain ⟨-, -, hfault, -⟩ := decode_placed hs (tokens ++ ["4:inf".toList, "x".toList])
  have hrow : decode s tokens = .ok [.signed true .infinity, .zero, .nan] := rfl
  exact ⟨hs, hserves.1 ⟨_, hrow⟩, hisRow _ hrow, (hfault _).1 rfl⟩

end Features

end SvmLight
