import Polyglot.Proofs.Text.Unquoting
import Polyglot.Text.Separated

/-! # Pieces of text

Text as a reader takes it apart: words, literals between quotes, marks, operators, and groups in
brackets with pieces inside. A reader finds the end of a word by looking for something that is not
a letter, the end of a literal by its closing quote and the end of a group by its closing bracket.
So no two lists of pieces have the same text, provided that words do not run into each other.
-/

namespace Polyglot.Reading

/-! ### Pieces -/

inductive Bracket where
  | round
  | square
  | curly
  | angle
deriving DecidableEq

namespace Bracket

def opening : Bracket → Char
  | round => '('
  | square => '['
  | curly => '\x7b'
  | angle => '<'

def closing : Bracket → Char
  | round => ')'
  | square => ']'
  | curly => '\x7d'
  | angle => '>'

end Bracket

inductive Mark where
  | point
  | comma
  | colon
deriving DecidableEq

def Mark.chars : Mark → List Char
  | point => ['.']
  | comma => [',', ' ']
  | colon => [':', ' ']

/-- What text consists of. -/
inductive Piece where
  | word (letters : List Char)
  /-- A literal between quotes. -/
  | quoted (content : List Char)
  | mark (mark : Mark)
  /-- A symbol with a blank on either side. -/
  | operator (symbol : List Char)
  | group (bracket : Bracket) (body : List Piece)

/-- The characters of words: numbers and their sign belong to them. -/
def isLetter (c : Char) : Bool :=
  c.isAlphanum || c = '_' || c = '-'

/-- The one word with a blank in it. -/
def newMap : List Char := "new Map".toList

mutual
/-- The text of a piece. -/
def chars : Piece → List Char
  | .word letters => letters
  | .quoted content => Text.quoteChars content
  | .mark mark => mark.chars
  | .operator symbol => ' ' :: (symbol ++ [' '])
  | .group bracket body => bracket.opening :: (charsAll body ++ [bracket.closing])

def charsAll : List Piece → List Char
  | [] => []
  | piece :: rest => chars piece ++ charsAll rest
end

@[simp] theorem charsAll_append (first second : List Piece) :
    charsAll (first ++ second) = charsAll first ++ charsAll second := by
  induction first with
  | nil => rfl
  | cons piece rest ih => simp [charsAll, ih]

/-! ### Sound pieces -/

def Piece.isWord : Piece → Bool
  | word _ => true
  | _ => false

/-- A word consists of letters, with one exception. -/
def SoundWord (letters : List Char) : Prop :=
  letters ≠ [] ∧ ((∀ c ∈ letters, isLetter c = true) ∨ letters = newMap)

instance (letters : List Char) : Decidable (SoundWord letters) :=
  decidable_of_iff (letters ≠ [] ∧ (letters.all isLetter = true ∨ letters = newMap))
    (by rw [SoundWord, List.all_eq_true])

/-- A symbol has no blank in it, and is not taken for the second half of the exception. -/
def SoundSymbol (symbol : List Char) : Prop :=
  ∀ c ∈ symbol, c ≠ ' ' ∧ c ≠ 'M'

instance (symbol : List Char) : Decidable (SoundSymbol symbol) :=
  decidable_of_iff (symbol.all fun c => c ≠ ' ' && c ≠ 'M')
    (by simp [SoundSymbol])

mutual
/-- Words and symbols can be told from what follows them. -/
def Sound : Piece → Prop
  | .word letters => SoundWord letters
  | .quoted _ | .mark _ => True
  | .operator symbol => SoundSymbol symbol
  | .group _ body => SoundAll body

/-- No word follows another one. -/
def SoundAll : List Piece → Prop
  | [] => True
  | piece :: rest =>
    Sound piece ∧ (piece.isWord = true → ∀ next ∈ rest.head?, next.isWord = false) ∧ SoundAll rest
end

/-! ### Reading -/

/-- A part that ends where a property does is determined by the whole. -/
theorem append_inj_of_run {α : Type} {P : α → Prop} {first second rest others : List α}
    (hfirst : ∀ a ∈ first, P a) (hsecond : ∀ a ∈ second, P a) (hrest : ∀ a ∈ rest.head?, ¬ P a)
    (hothers : ∀ a ∈ others.head?, ¬ P a) (h : first ++ rest = second ++ others) :
    first = second ∧ rest = others := by
  induction first generalizing second with
  | nil =>
    cases second with
    | nil => exact ⟨rfl, h⟩
    | cons b second =>
      obtain rfl : rest = b :: (second ++ others) := h
      exact absurd (hsecond b List.mem_cons_self) (hrest b rfl)
  | cons a first ih =>
    cases second with
    | nil =>
      obtain rfl : a :: (first ++ rest) = others := h
      exact absurd (hfirst a List.mem_cons_self) (hothers a rfl)
    | cons b second =>
      obtain ⟨rfl, htail⟩ := List.cons.inj h
      have hsame := ih (fun c hc => hfirst c (List.mem_cons_of_mem a hc))
        (fun c hc => hsecond c (List.mem_cons_of_mem a hc)) htail
      exact ⟨congrArg _ hsame.1, hsame.2⟩

/-- A word does not go on here. -/
def EndsWord (text : List Char) : Prop :=
  (∀ c ∈ text.head?, ¬ isLetter c = true) ∧ ∀ rest, text ≠ ' ' :: 'M' :: rest

/-- A group may end here, or all of the text. -/
def EndsGroup (text : List Char) : Prop :=
  ∀ c ∈ text.head?, ∃ bracket : Bracket, c = bracket.closing

theorem endsWord_cons {c : Char} {text : List Char} (hletter : isLetter c = false)
    (hblank : c ≠ ' ') : EndsWord (c :: text) := by
  refine ⟨?_, ?_⟩
  · rintro d ⟨⟩
    rw [hletter]
    exact Bool.false_ne_true
  · intro rest heq
    exact hblank (List.cons.inj heq).1

theorem EndsGroup.endsWord {text : List Char} (h : EndsGroup text) : EndsWord text := by
  cases text with
  | nil => exact ⟨nofun, nofun⟩
  | cons c text =>
    obtain ⟨bracket, rfl⟩ := h c rfl
    cases bracket <;> exact endsWord_cons (by decide) (by decide)

theorem word_inj {first second rest others : List Char} (hfirst : SoundWord first)
    (hsecond : SoundWord second) (hrest : EndsWord rest) (hothers : EndsWord others)
    (h : first ++ rest = second ++ others) : first = second ∧ rest = others := by
  -- The letters of the exception end at its blank, where no other word can end.
  have hnew : ∀ {letters rest others : List Char}, (∀ c ∈ letters, isLetter c = true) →
      EndsWord rest → letters ++ rest ≠ newMap ++ others := by
    intro letters rest others hletters hrest heq
    have hsplit : newMap ++ others = "new".toList ++ (' ' :: 'M' :: 'a' :: 'p' :: others) := rfl
    rw [hsplit] at heq
    have hsame := append_inj_of_run hletters (List.all_eq_true.mp (by decide)) hrest.1
      (by simp; decide) heq
    exact hrest.2 _ hsame.2
  obtain ⟨-, hfirst | rfl⟩ := hfirst
  · obtain ⟨-, hsecond | rfl⟩ := hsecond
    · exact append_inj_of_run hfirst hsecond hrest.1 hothers.1 h
    · exact absurd h (hnew hfirst hrest)
  · obtain ⟨-, hsecond | rfl⟩ := hsecond
    · exact absurd h.symm (hnew hsecond hothers)
    · exact ⟨rfl, List.append_cancel_left h⟩

/-- What a character announces at the start of a piece. -/
inductive Start where
  | letter
  | quote
  | mark (mark : Mark)
  | blank
  | bracket (bracket : Bracket)

def startOf (c : Char) : Option Start :=
  if isLetter c then some .letter
  else if c = '"' then some .quote
  else if c = '.' then some (.mark .point)
  else if c = ',' then some (.mark .comma)
  else if c = ':' then some (.mark .colon)
  else if c = ' ' then some .blank
  else if c = '(' then some (.bracket .round)
  else if c = '[' then some (.bracket .square)
  else if c = '\x7b' then some (.bracket .curly)
  else if c = '<' then some (.bracket .angle)
  else none

def Piece.start : Piece → Start
  | word _ => .letter
  | quoted _ => .quote
  | mark m => .mark m
  | operator _ => .blank
  | group bracket _ => .bracket bracket

theorem exists_start {piece : Piece} (h : Sound piece) :
    ∃ c rest, chars piece = c :: rest ∧ startOf c = some piece.start := by
  cases piece with
  | word letters =>
    obtain ⟨hne, hletters⟩ := h
    obtain ⟨c, rest, rfl⟩ := List.exists_cons_of_ne_nil hne
    refine ⟨c, rest, rfl, ?_⟩
    have hletter : isLetter c = true := by
      rcases hletters with hletters | hnew
      · exact hletters c List.mem_cons_self
      · obtain ⟨rfl, -⟩ := List.cons.inj hnew
        rfl
    rw [startOf, if_pos hletter]
    rfl
  | quoted content => exact ⟨_, _, rfl, rfl⟩
  | mark m => cases m <;> exact ⟨_, _, rfl, rfl⟩
  | operator symbol => exact ⟨_, _, rfl, rfl⟩
  | group bracket body => cases bracket <;> exact ⟨_, _, rfl, rfl⟩

theorem startOf_closing (bracket : Bracket) : startOf bracket.closing = none := by
  cases bracket <;> rfl

/-- What follows a word ends it. -/
theorem endsWord_charsAll {pieces : List Piece} {text : List Char} (hsound : SoundAll pieces)
    (htext : EndsGroup text) (hnext : ∀ next ∈ pieces.head?, next.isWord = false) :
    EndsWord (charsAll pieces ++ text) := by
  cases pieces with
  | nil => exact htext.endsWord
  | cons piece rest =>
    have hword := hnext piece rfl
    have hpiece := hsound.1
    cases piece with
    | word letters => cases hword
    | quoted content => exact endsWord_cons (by decide) (by decide)
    | mark m => cases m <;> exact endsWord_cons (by decide) (by decide)
    | operator symbol =>
      refine ⟨by simp [charsAll, chars]; decide, ?_⟩
      intro others heq
      cases symbol with
      | nil => simp [charsAll, chars] at heq
      | cons c symbol =>
        have hc : c = 'M' := by
          simp only [charsAll, chars, List.cons_append] at heq
          simp_all
        exact (hpiece c List.mem_cons_self).2 hc
    | group bracket body => cases bracket <;> exact endsWord_cons (by decide) (by decide)

theorem start_eq {first second : Piece} {rest others : List Char} (hfirst : Sound first)
    (hsecond : Sound second) (h : chars first ++ rest = chars second ++ others) :
    first.start = second.start := by
  obtain ⟨c, _, hchars, hc⟩ := exists_start hfirst
  obtain ⟨d, _, hchars', hd⟩ := exists_start hsecond
  rw [hchars, hchars'] at h
  obtain ⟨rfl, -⟩ := List.cons.inj h
  exact Option.some.inj (hc.symm.trans hd)

/-- No piece starts where a group ends. -/
theorem charsAll_cons_ne {piece : Piece} {pieces : List Piece} {rest others : List Char}
    (hpiece : Sound piece) (hothers : EndsGroup others) :
    charsAll (piece :: pieces) ++ rest ≠ others := by
  obtain ⟨c, _, hchars, hc⟩ := exists_start hpiece
  rintro rfl
  rw [charsAll, hchars] at hothers
  obtain ⟨bracket, rfl⟩ := hothers c rfl
  rw [startOf_closing] at hc
  cases hc

mutual
/-- A piece is determined by a text that starts with it. -/
theorem chars_inj : (first second : Piece) → {rest others : List Char} → Sound first →
    Sound second → (first.isWord = true → EndsWord rest) →
    (second.isWord = true → EndsWord others) → chars first ++ rest = chars second ++ others →
    first = second ∧ rest = others := by
  intro first second rest others hfirst hsecond hrest hothers h
  have hstart := start_eq hfirst hsecond h
  match first, second with
  | .word letters, .word letters' =>
    obtain ⟨rfl, hrest⟩ := word_inj hfirst hsecond (hrest rfl) (hothers rfl) h
    exact ⟨rfl, hrest⟩
  | .quoted content, .quoted content' =>
    obtain ⟨rfl, hrest⟩ := Text.quoteChars_append_inj h
    exact ⟨rfl, hrest⟩
  | .mark m, .mark m' =>
    obtain rfl : m = m' := Start.mark.inj hstart
    exact ⟨rfl, List.append_cancel_left h⟩
  | .operator symbol, .operator symbol' =>
    have hsymbols : symbol ++ ' ' :: rest = symbol' ++ ' ' :: others := by
      simpa [chars] using h
    obtain ⟨rfl, hrest⟩ := append_inj_of_run (fun c hc => (hfirst c hc).1)
      (fun c hc => (hsecond c hc).1) (by simp) (by simp) hsymbols
    exact ⟨rfl, (List.cons.inj hrest).2⟩
  | .group bracket body, .group bracket' body' =>
    obtain rfl : bracket = bracket' := Start.bracket.inj hstart
    have hbodies : charsAll body ++ bracket.closing :: rest =
        charsAll body' ++ bracket.closing :: others := by
      simpa [chars] using h
    have hends : ∀ text, EndsGroup (bracket.closing :: text) := by
      rintro text c ⟨⟩
      exact ⟨bracket, rfl⟩
    obtain ⟨rfl, hrest⟩ := charsAll_inj body body' hfirst hsecond (hends rest) (hends others)
      hbodies
    exact ⟨rfl, (List.cons.inj hrest).2⟩

/-- Pieces are determined by a text that starts with them and goes on with the end of a group. -/
theorem charsAll_inj : (first second : List Piece) → {rest others : List Char} → SoundAll first →
    SoundAll second → EndsGroup rest → EndsGroup others →
    charsAll first ++ rest = charsAll second ++ others → first = second ∧ rest = others := by
  intro first second rest others hfirst hsecond hrest hothers h
  match first, second with
  | [], [] => exact ⟨rfl, h⟩
  | [], piece :: pieces => exact absurd h.symm (charsAll_cons_ne hsecond.1 hrest)
  | piece :: pieces, [] => exact absurd h (charsAll_cons_ne hfirst.1 hothers)
  | piece :: pieces, piece' :: pieces' =>
    rw [charsAll, charsAll, List.append_assoc, List.append_assoc] at h
    obtain ⟨hpiece, hnext, hpieces⟩ := hfirst
    obtain ⟨hpiece', hnext', hpieces'⟩ := hsecond
    obtain ⟨rfl, htail⟩ := chars_inj piece piece' hpiece hpiece'
      (fun hword => endsWord_charsAll hpieces hrest (hnext hword))
      (fun hword => endsWord_charsAll hpieces' hothers (hnext' hword)) h
    obtain ⟨rfl, hsame⟩ := charsAll_inj pieces pieces' hpieces hpieces' hrest hothers htail
    exact ⟨rfl, hsame⟩
end

/-- Sound pieces are determined by their text. -/
theorem eq_of_charsAll_eq {first second : List Piece} (hfirst : SoundAll first)
    (hsecond : SoundAll second) (h : charsAll first = charsAll second) : first = second := by
  have hends : EndsGroup [] := nofun
  have htexts : charsAll first ++ [] = charsAll second ++ [] := by rw [h]
  exact (charsAll_inj first second hfirst hsecond hends hends htexts).1

/-! ### Lists of sound pieces -/

theorem soundAll_cons {piece : Piece} {pieces : List Piece} (hword : piece.isWord = false)
    (hpiece : Sound piece) (hpieces : SoundAll pieces) : SoundAll (piece :: pieces) := by
  refine ⟨hpiece, ?_, hpieces⟩
  intro h
  rw [hword] at h
  cases h

theorem soundAll_singleton {piece : Piece} (h : Sound piece) : SoundAll [piece] :=
  ⟨h, nofun, trivial⟩

/-- Pieces after others, if the first of them is no word. -/
theorem soundAll_append {first second : List Piece} (hfirst : SoundAll first)
    (hsecond : SoundAll second) (hnext : ∀ next ∈ second.head?, next.isWord = false) :
    SoundAll (first ++ second) := by
  induction first with
  | nil => exact hsecond
  | cons piece rest ih =>
    obtain ⟨hpiece, hapart, hrest⟩ := hfirst
    refine ⟨hpiece, ?_, ih hrest⟩
    cases rest with
    | nil => exact fun _ => hnext
    | cons other rest => exact hapart

/-! ### Separated lists -/

def comma : Piece := .mark .comma

/-- The lists in order, each after a comma. -/
def listed (lists : List (List Piece)) : List Piece :=
  lists.flatMap fun pieces => comma :: pieces

/-- The lists in order, with a comma between neighbours. -/
def separated : List (List Piece) → List Piece
  | [] => []
  | first :: rest => first ++ listed rest

theorem charsAll_listed (text : String) {texts : List String} {lists : List (List Piece)}
    (h : texts.map String.toList = lists.map charsAll) :
    (Text.commaSeparated (text :: texts)).toList = text.toList ++ charsAll (listed lists) := by
  induction texts generalizing text lists with
  | nil =>
    obtain rfl : lists = [] := by simpa using h.symm
    simp [Text.commaSeparated, listed, charsAll]
  | cons second texts ih =>
    cases lists with
    | nil => simp at h
    | cons pieces lists =>
      obtain ⟨hsecond, hrest⟩ := List.cons.inj h
      have hlisted : charsAll (listed (pieces :: lists)) =
          ", ".toList ++ (second.toList ++ charsAll (listed lists)) := by
        rw [hsecond, ← charsAll_append]
        rfl
      rw [Text.commaSeparated, String.toList_append, String.toList_append, ih second hrest, hlisted,
        List.append_assoc]

theorem charsAll_separated {texts : List String} {lists : List (List Piece)}
    (h : texts.map String.toList = lists.map charsAll) :
    (Text.commaSeparated texts).toList = charsAll (separated lists) := by
  cases texts with
  | nil =>
    obtain rfl : lists = [] := by simpa using h.symm
    rfl
  | cons text texts =>
    cases lists with
    | nil => simp at h
    | cons pieces lists =>
      obtain ⟨hfirst, hrest⟩ := List.cons.inj h
      rw [separated, charsAll_append, ← hfirst, charsAll_listed text hrest]

theorem soundAll_listed {lists : List (List Piece)} (h : ∀ pieces ∈ lists, SoundAll pieces) :
    SoundAll (listed lists) ∧ ∀ next ∈ (listed lists).head?, next.isWord = false := by
  induction lists with
  | nil => exact ⟨trivial, nofun⟩
  | cons pieces lists ih =>
    obtain ⟨hrest, hnext⟩ := ih fun other hother => h other (List.mem_cons_of_mem pieces hother)
    have hpieces := soundAll_append (h pieces List.mem_cons_self) hrest hnext
    refine ⟨soundAll_cons rfl trivial hpieces, ?_⟩
    rintro next ⟨⟩
    rfl

theorem soundAll_separated {lists : List (List Piece)} (h : ∀ pieces ∈ lists, SoundAll pieces) :
    SoundAll (separated lists) := by
  cases lists with
  | nil => trivial
  | cons pieces lists =>
    obtain ⟨hrest, hnext⟩ := soundAll_listed fun other hother =>
      h other (List.mem_cons_of_mem pieces hother)
    exact soundAll_append (h pieces List.mem_cons_self) hrest hnext

theorem append_listed_inj {first second : List Piece} {lists others : List (List Piece)}
    (hfirst : comma ∉ first) (hsecond : comma ∉ second)
    (h : first ++ listed lists = second ++ listed others) :
    first = second ∧ listed lists = listed others := by
  have hhead : ∀ lists, ∀ piece ∈ (listed lists).head?, ¬ piece ≠ comma := by
    intro lists
    cases lists with
    | nil => nofun
    | cons pieces lists => simp [listed]
  have hlacks : ∀ {pieces : List Piece}, comma ∉ pieces → ∀ piece ∈ pieces, piece ≠ comma := by
    rintro pieces hpieces piece hpiece rfl
    exact hpieces hpiece
  exact append_inj_of_run (hlacks hfirst) (hlacks hsecond) (hhead lists) (hhead others) h

theorem listed_inj {first second : List (List Piece)} (hfirst : ∀ pieces ∈ first, comma ∉ pieces)
    (hsecond : ∀ pieces ∈ second, comma ∉ pieces) (h : listed first = listed second) :
    first = second := by
  induction first generalizing second with
  | nil =>
    cases second with
    | nil => rfl
    | cons pieces second => simp [listed] at h
  | cons pieces first ih =>
    cases second with
    | nil => simp [listed] at h
    | cons pieces' second =>
      obtain ⟨rfl, hrest⟩ := append_listed_inj (hfirst pieces List.mem_cons_self)
        (hsecond pieces' List.mem_cons_self) (List.cons.inj h).2
      rw [ih (fun other hother => hfirst other (List.mem_cons_of_mem pieces hother))
        (fun other hother => hsecond other (List.mem_cons_of_mem pieces hother)) hrest]

/-- Lists that are not empty and have no commas in them are determined. -/
theorem separated_inj {first second : List (List Piece)}
    (hfirst : ∀ pieces ∈ first, pieces ≠ [] ∧ comma ∉ pieces)
    (hsecond : ∀ pieces ∈ second, pieces ≠ [] ∧ comma ∉ pieces)
    (h : separated first = separated second) : first = second := by
  have hempty : ∀ {pieces : List Piece} {lists}, pieces ≠ [] →
      [] ≠ separated (pieces :: lists) := by
    intro pieces lists hne heq
    exact hne (List.append_eq_nil_iff.mp heq.symm).1
  cases first with
  | nil =>
    cases second with
    | nil => rfl
    | cons pieces second => exact absurd h (hempty (hsecond pieces List.mem_cons_self).1)
  | cons pieces first =>
    cases second with
    | nil => exact absurd h.symm (hempty (hfirst pieces List.mem_cons_self).1)
    | cons pieces' second =>
      obtain ⟨rfl, hrest⟩ := append_listed_inj (hfirst pieces List.mem_cons_self).2
        (hsecond pieces' List.mem_cons_self).2 h
      rw [listed_inj (fun other hother => (hfirst other (List.mem_cons_of_mem pieces hother)).2)
        (fun other hother => (hsecond other (List.mem_cons_of_mem pieces hother)).2) hrest]

end Polyglot.Reading
