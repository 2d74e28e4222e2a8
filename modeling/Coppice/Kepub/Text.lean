import Mathlib.Data.List.Find
import Coppice.Std.Text

/-!
# Text of a KEPUB document

Smart punctuation, sentences and escaping of `kepub/src`, on the characters of a text. The
source walks the bytes of valid UTF-8 and only ever cuts between characters. Smartening and
escaping a text sentence by sentence is smartening and escaping it as a whole: sentences are
cut after a space, and nothing that is replaced contains one.
-/

namespace Coppice.Kepub

open Coppice.Std List

section Smarten

variable {blank : Char} {token : List Char × Char} {before after text : List Char}

/-- What `smartypants` replaces, in the order it tries; letters match in either case. -/
def smartTokens : List (List Char × Char) :=
  [("(c)".toList, '©'), ("(r)".toList, '®'), ("(tm)".toList, '™'), ("...".toList, '…'),
    ("---".toList, '—'), ("--".toList, '–'), ("1/2".toList, '½'), ("1/4".toList, '¼'),
    ("3/4".toList, '¾')]

/-- The token a text starts with. -/
def smartToken (text : List Char) : Option (List Char × Char) :=
  smartTokens.find? fun token => token.1.isPrefixOf (text.map Char.toLower)

/-- A quote after this character opens. -/
def opensQuote : Option Char → Bool
  | none => true
  | some previous => isWhitespace previous || "([\x7b<&".toList.contains previous

def smartQuote (previous : Option Char) (c : Char) : Char :=
  if c = '\x27' then if opensQuote previous then '‘' else '’'
  else if c = '\x22' then if opensQuote previous then '“' else '”'
  else c

/-- The loop of `smartypants` after `previous` was put out, with `covered` characters still
belonging to the last token. -/
def smartenFrom (previous : Option Char) : Nat → List Char → List Char
  | _, [] => []
  | covered + 1, _ :: rest => smartenFrom previous covered rest
  | 0, c :: rest =>
    match smartToken (c :: rest) with
    | some (token, symbol) => symbol :: smartenFrom (some symbol) (token.length - 1) rest
    | none => smartQuote previous c :: smartenFrom (some (smartQuote previous c)) 0 rest

def smartypants (text : List Char) : List Char := smartenFrom none 0 text

theorem smartTokens_blankless : ∀ token ∈ smartTokens, ∀ c ∈ token.1, isWhitespace c = false := by
  have every : smartTokens.all (fun token => token.1.all fun c => !isWhitespace c) =
    true := by decide
  intro token member c among
  have blankless := all_eq_true.mp (all_eq_true.mp every token member) c among
  simpa using blankless

theorem toLower_of_isWhitespace {c : Char} (blank : isWhitespace c = true) : c.toLower = c := by
  unfold Char.toLower
  split
  · rename_i upper
    exfalso
    have low := UInt32.le_iff_toNat_le.mp upper.1
    have high := UInt32.le_iff_toNat_le.mp upper.2
    have small : 65 ≤ c.toNat ∧ c.toNat ≤ 90 := ⟨low, high⟩
    simp only [isWhitespace, Bool.or_eq_true, Bool.and_eq_true, decide_eq_true_eq,
      beq_iff_eq] at blank
    omega
  · rfl

/-- Where a token has no blank, what follows a blank does not matter to it. -/
theorem prefix_of_blank {token : List Char} (absent : blank ∉ token)
    (starts : token <+: before ++ blank :: after) : token <+: before := by
  rcases prefix_or_prefix_of_prefix starts (prefix_append before _) with short | long
  · exact short
  obtain ⟨more, rfl⟩ := long
  have tail : more <+: blank :: after := (prefix_append_right_inj before).mp starts
  cases more with
  | nil => exact (append_nil before).symm ▸ prefix_rfl
  | cons c more =>
    obtain rfl : c = blank := (cons_prefix_cons.mp tail).1
    exact absurd (mem_append_right _ mem_cons_self) absent

theorem length_of_smartToken
    (found : smartToken text = some token) : token.1.length ≤ text.length := by
  have starts := find?_some found
  have length := IsPrefix.length_le <| isPrefixOf_iff_prefix.mp starts
  rwa [length_map] at length

section Blank

variable (white : isWhitespace blank = true)
include white

theorem isPrefixOf_blank (listed : token ∈ smartTokens) :
    token.1.isPrefixOf ((before ++ blank :: after).map Char.toLower) =
      token.1.isPrefixOf (before.map Char.toLower) := by
  have absent : blank ∉ token.1 := by
    intro member
    exact absurd (smartTokens_blankless token listed blank member) (by simp [white])
  rw [Bool.eq_iff_iff, isPrefixOf_iff_prefix, isPrefixOf_iff_prefix, map_append,
    map_cons, toLower_of_isWhitespace white]
  constructor
  · exact prefix_of_blank absent
  · intro starts
    exact starts.trans (prefix_append _ _)

/-- The token before a blank is the same whatever follows the blank. -/
theorem smartToken_blank : smartToken (before ++ blank :: after) = smartToken before := by
  refine find?_congr fun token listed => ?_
  exact isPrefixOf_blank white listed

theorem smartQuote_blank (previous : Option Char) : smartQuote previous blank = blank := by
  have single : blank ≠ '\x27' := by
    rintro rfl
    exact absurd white (by decide)
  have double : blank ≠ '\x22' := by
    rintro rfl
    exact absurd white (by decide)
  simp [smartQuote, single, double]

/-- After a blank the loop is where it started. -/
theorem smartenFrom_after_blank (text : List Char) :
    smartenFrom (some blank) 0 text = smartypants text := by
  cases text with
  | nil => rfl
  | cons c rest =>
    have quote : smartQuote (some blank) c = smartQuote none c := by
      simp [smartQuote, opensQuote, white]
    unfold smartypants smartenFrom
    rw [quote]

theorem smartenFrom_append_blank (left right : List Char) : ∀ previous covered,
    covered ≤ left.length →
    smartenFrom previous covered (left ++ blank :: right) =
      smartenFrom previous covered (left ++ [blank]) ++ smartypants right := by
  induction left with
  | nil =>
    intro previous covered within
    obtain rfl : covered = 0 := Nat.le_zero.mp within
    have none : ∀ after, smartToken (blank :: after) = none :=
      fun after => @smartToken_blank blank [] after white
    simp only [nil_append, smartenFrom, none, smartQuote_blank white previous,
      smartenFrom_after_blank white, singleton_append]
  | cons c left ih =>
    intro previous covered within
    cases covered with
    | succ covered => exact ih previous covered (Nat.le_of_succ_le_succ within)
    | zero =>
      have same : ∀ after, smartToken (c :: (left ++ blank :: after)) = smartToken (c :: left) :=
        fun after => @smartToken_blank blank (c :: left) after white
      simp only [cons_append, smartenFrom, same]
      split
      · rename_i token symbol found
        have length : token.length ≤ left.length + 1 := length_of_smartToken found
        rw [ih _ _ (by omega), cons_append]
      · rw [ih _ _ (Nat.zero_le _), cons_append]

/-- A text that ends in a blank is smartened by itself. -/
theorem smartypants_append {left right : List Char} :
    smartypants (left ++ [blank] ++ right) =
      smartypants (left ++ [blank]) ++ smartypants right := by
  rw [append_assoc]
  exact smartenFrom_append_blank white left right none 0 (Nat.zero_le _)

end Blank

theorem smartypants_of_blank (blank : text.all isWhitespace = true) : smartypants text = text := by
  induction text with
  | nil => rfl
  | cons c rest ih =>
    obtain ⟨white, others⟩ := all_cons.symm.trans blank |> Bool.and_eq_true_iff.mp
    have split := @smartypants_append c white [] rest
    have single : smartypants [c] = [c] := by
      have none : smartToken [c] = none := @smartToken_blank c [] [] white
      simp [smartypants, smartenFrom, none, smartQuote_blank white]
    simp only [nil_append, singleton_append] at split
    rw [split, single, ih others, singleton_append]

end Smarten

section Sentences

variable {f : List Char → List Char}

inductive SentenceClass where
  | space
  | punct
  | extra
  | other
deriving DecidableEq, Repr

/-- `classify_sentence_at`, on the character that starts there. -/
def classifySentence (c : Char) : SentenceClass :=
  if ['\t', '\n', '\x0c', '\r', ' '].contains c then .space
  else if ['.', '!', '?'].contains c then .punct
  else if ['\x27', '\x22', '”', '’', '“', '…'].contains c then .extra
  else .other

inductive SentenceState where
  | default
  | afterPunct
  | afterPunctExtra
  | afterSpace
deriving DecidableEq, Repr

def SentenceState.next : SentenceState → SentenceClass → SentenceState
  | _, .punct => .afterPunct
  | .default, _ => .default
  | .afterPunct, .extra => .afterPunctExtra
  | _, .space => .afterSpace
  | _, .extra => .default
  | _, .other => .default

/-- The loop of `split_sentences`: the sentence under way is `start`, and `emitted` says
whether one was put out before it. -/
def splitFrom (state : SentenceState) (emitted : Bool) (start : List Char) :
    List Char → List (List Char)
  | [] => if start ≠ [] ∨ emitted = false then [start] else []
  | c :: rest =>
    let class_ := classifySentence c
    if state = .afterSpace ∧ class_ ≠ .space then
      start :: splitFrom (state.next class_) true [c] rest
    else splitFrom (state.next class_) emitted (start ++ [c]) rest

def splitSentences (text : List Char) : List (List Char) := splitFrom .default false [] text

theorem isWhitespace_of_space {c : Char} (space : classifySentence c = .space) :
    isWhitespace c = true := by
  unfold classifySentence at space
  split at space
  · rename_i listed
    have among : c ∈ ['\t', '\n', '\x0c', '\r', ' '] := contains_iff_mem.mp listed
    revert among
    simp only [mem_cons, not_mem_nil, or_false]
    rintro (rfl | rfl | rfl | rfl | rfl) <;> decide
  · split at space
    · cases space
    · split at space <;> cases space

theorem space_of_next {state : SentenceState} {c : Char}
    (after : state.next (classifySentence c) = .afterSpace) : isWhitespace c = true := by
  apply isWhitespace_of_space
  cases state <;> cases kind : classifySentence c <;> rw [kind] at after <;>
    first | rfl | cases after

variable (empty : f [] = []) (apart : ∀ left right blank, isWhitespace blank = true →
  f (left ++ [blank] ++ right) = f (left ++ [blank]) ++ f right)
include empty apart

/-- A function that takes texts apart after a blank takes them apart into sentences. -/
theorem flatMap_splitFrom (text : List Char) : ∀ state emitted start,
    (state = .afterSpace → ∃ left blank, start = left ++ [blank] ∧ isWhitespace blank = true) →
    (splitFrom state emitted start text).flatMap f = f (start ++ text) := by
  induction text with
  | nil =>
    intro state emitted start _
    simp only [splitFrom, append_nil]
    split
    · simp
    rename_i nothing
    rw [not_or, not_not] at nothing
    rw [nothing.1, empty]
    rfl
  | cons c rest ih =>
    intro state emitted start spaced
    simp only [splitFrom]
    split
    · rename_i cut
      obtain ⟨left, blank, rfl, white⟩ := spaced cut.1
      rw [flatMap_cons, ih, singleton_append, apart _ _ _ white]
      intro next
      exact ⟨[], c, rfl, space_of_next next⟩
    · rw [ih, append_assoc, singleton_append]
      intro next
      exact ⟨start, c, rfl, space_of_next next⟩

theorem flatMap_splitSentences (text : List Char) : (splitSentences text).flatMap f = f text :=
  flatMap_splitFrom empty apart text .default false [] nofun

end Sentences

section Escape

def escapeChar (polyglot : Bool) (c : Char) : List Char :=
  if c = '&' then "&amp;".toList
  else if c = '\x27' then "&#39;".toList
  else if c = '<' then "&lt;".toList
  else if c = '>' then "&gt;".toList
  else if c = '\x22' then "&#34;".toList
  else if c = '\r' then "&#13;".toList
  else if polyglot ∧ c = '\u00a0' then "&#160;".toList
  else [c]

def escapeText (polyglot : Bool) (text : List Char) : List Char :=
  text.flatMap (escapeChar polyglot)

def escapeAttribute (text : List Char) : List Char := escapeText false text

/-- A character stays, or becomes longer. -/
theorem escapeChar_cases (polyglot : Bool) (c : Char) :
    escapeChar polyglot c = [c] ∨ 1 < (escapeChar polyglot c).length := by
  unfold escapeChar
  repeat' split
  all_goals first | exact .inr (by decide) | exact .inl rfl

theorem length_le_escapeText (polyglot : Bool) (text : List Char) :
    text.length ≤ (escapeText polyglot text).length := by
  induction text with
  | nil => exact Nat.le_refl _
  | cons c rest ih =>
    have single : 1 ≤ (escapeChar polyglot c).length := by
      rcases escapeChar_cases polyglot c with same | longer
      · rw [same]
        exact Nat.le_refl _
      · exact Nat.le_of_lt longer
    unfold escapeText at ih ⊢
    rw [flatMap_cons, length_append, length_cons]
    omega

/-- Escaping that does not lengthen a text does not change it. -/
theorem escapeText_eq_of_length {polyglot : Bool} {text : List Char}
    (same : (escapeText polyglot text).length = text.length) : escapeText polyglot text = text := by
  induction text with
  | nil => rfl
  | cons c rest ih =>
    have rest_le := length_le_escapeText polyglot rest
    unfold escapeText at same ih rest_le ⊢
    rw [flatMap_cons, length_append, length_cons] at same
    rcases escapeChar_cases polyglot c with kept | longer
    · rw [kept, length_singleton] at same
      rw [flatMap_cons, kept, ih (by omega), singleton_append]
    · omega

end Escape

end Coppice.Kepub
