import MarkdownFences.Proofs.Pattern.Line
import MarkdownFences.Proofs.Snippet.Signs

namespace MarkdownFences.Snippet

open Text Text.Pattern

def isGap (c : Char) : Bool := " \t".toList.contains c

/-- The tokens of a line are what stands between spaces and tabs. -/
def tokens (l : Text) : List Text := (l.splitOnP isGap).filter (· != [])

def isNameChar (c : Char) : Bool := isWordChar c || c == '.' || c == '-'

def isCommandName : Text → Bool
  | [] => false
  | c :: r => isAsciiLower c && r.all isNameChar

/-- A word of scripts begins the token and ends where a word ends. -/
def opensScript (w : Text) : Bool :=
  scriptWords.any fun s => s.toList.isPrefixOf w && !isWord (w.drop s.length).head?

def begins (p : Char → Bool) (w : Text) : Bool := w.head?.any p

def isFlag (w : Text) : Bool :=
  begins (· == '-') w &&
    (begins isAsciiLetter w.tail || begins (· == '-') w.tail && begins isAsciiLetter w.tail.tail)

/-- A token that may stand between a command and its first flag. -/
def isArgument (w : Text) : Bool := !begins (· == '-') w && w.all (!isBlank ·)

/-- The first token that is no argument is a flag. -/
def reachesFlag (args : List Text) : Bool := (args.dropWhile isArgument).head?.any isFlag

/-- The line begins with a command whose flags can be seen. -/
def showsFlag (l : Text) : Bool :=
  match tokens l with
  | [] => false
  | name :: args => name.isPrefixOf l && isCommandName name && !opensScript name && reachesFlag args

def EndsToken (t : Text) : Prop := ∀ c, t.head? = some c → isGap c = true

variable {c : Char} {back : Option Char} {l name part rest t u v w : Text} {args ws : List Text}

theorem eq_of_isGap (h : isGap c = true) : c = ' ' ∨ c = '\t' := by
  simpa [isGap] using h

theorem isBlank_of_isGap (h : isGap c = true) : isBlank c = true := by
  obtain rfl | rfl := eq_of_isGap h
  · rfl
  · rfl

theorem isGap_eq_false (h : isBlank c = false) : isGap c = false := by
  cases hc : isGap c with
  | false => rfl
  | true => cases h.symm.trans (isBlank_of_isGap hc)

section Tokens

theorem tokens_gap_append (hu : ∀ c ∈ u, isGap c = true) (t : Text) :
    tokens (u ++ t) = tokens t := by
  induction u with
  | nil => rfl
  | cons c u ih =>
    obtain ⟨hc, hu⟩ := List.forall_mem_cons.mp hu
    rw [← ih hu, tokens, List.cons_append, List.splitOnP_cons_eq_if_modifyHead, if_pos hc]
    rfl

theorem tokens_append (hne : w ≠ []) (hw : ∀ c ∈ w, isGap c = false) (ht : EndsToken t) :
    tokens (w ++ t) = w :: tokens t := by
  cases t with
  | nil =>
    rw [List.append_nil, tokens, List.splitOnP_eq_singleton hw]
    simp [hne, tokens]
  | cons c t =>
    have hc : isGap c = true := ht c rfl
    calc tokens (w ++ c :: t)
      _ = ([w] ++ t.splitOnP isGap).filter (· != []) := by
        rw [tokens, List.splitOnP_append_cons w t hc, List.splitOnP_eq_singleton hw]
      _ = w :: tokens t := by simp [hne, tokens]
      _ = w :: tokens (c :: t) := by rw [← tokens_gap_append (u := [c]) (by simpa using hc) t]; rfl

theorem exists_token (h : isGap c = false) (r : Text) : ∃ w t, c :: r = w ++ t ∧ w ≠ [] ∧
    (∀ d ∈ w, isGap d = false) ∧ EndsToken t := by
  refine ⟨(c :: r).takeWhile (!isGap ·), (c :: r).dropWhile (!isGap ·), ?_, ?_, ?_, ?_⟩
  · exact List.takeWhile_append_dropWhile.symm
  · simp [h]
  · intro d hd
    simpa using List.all_eq_true.mp List.all_takeWhile d hd
  · intro d hd
    simpa [hd] using List.head?_dropWhile_not (!isGap ·) (c :: r)

theorem exists_tokens (h : tokens l = w :: ws) : ∃ u t, l = u ++ (w ++ t) ∧
    (∀ c ∈ u, isGap c = true) ∧ w ≠ [] ∧ (∀ c ∈ w, isGap c = false) ∧ EndsToken t ∧
    tokens t = ws := by
  have hgap : ∀ c ∈ l.takeWhile isGap, isGap c = true := List.all_eq_true.mp List.all_takeWhile
  have hl : l.takeWhile isGap ++ l.dropWhile isGap = l := List.takeWhile_append_dropWhile
  have hhead := List.head?_dropWhile_not isGap l
  rw [← hl, tokens_gap_append hgap] at h
  cases hr : l.dropWhile isGap with
  | nil =>
    rw [hr] at h
    cases h
  | cons c r =>
    rw [hr] at h hl hhead
    obtain ⟨w', t, hcut, hne, hw, ht⟩ := exists_token (by simpa using hhead) r
    rw [hcut, tokens_append hne hw ht, List.cons.injEq] at h
    obtain ⟨rfl, hws⟩ := h
    exact ⟨_, t, by rw [← hcut, hl], hgap, hne, hw, ht, hws⟩

theorem EndsToken.exists_gap (ht : EndsToken t) (h : tokens t = w :: ws) :
    ∃ u r, t = u ++ (w ++ r) ∧
    (u ≠ [] ∧ ∀ c ∈ u, isGap c = true) ∧ w ≠ [] ∧ EndsToken r ∧ tokens r = ws := by
  obtain ⟨u, r, rfl, hgap, hne, htoken, hr, hws⟩ := exists_tokens h
  refine ⟨u, r, rfl, ⟨?_, hgap⟩, hne, hr, hws⟩
  rintro rfl
  obtain ⟨c, w, rfl⟩ := List.exists_cons_of_ne_nil hne
  cases (htoken c List.mem_cons_self).symm.trans (ht c rfl)

end Tokens

section Arguments

def argument : Pattern :=
  sequence [indentation, one fun c => !isBlank c && c != '-', many (one (!isBlank ·))]

def flagParts : List Pattern :=
  [char '-', optional (char '-'), one isAsciiLetter, many (one fun c => isWordChar c || c == '-')]

theorem EndsToken.of_gap_append (hu : u ≠ []) (hgap : ∀ c ∈ u, isGap c = true) (t : Text) :
    EndsToken (u ++ t) := by
  obtain ⟨c, u, rfl⟩ := List.exists_cons_of_ne_nil hu
  rintro d ⟨⟩
  exact hgap _ List.mem_cons_self

theorem EndsToken.begins_append (ht : EndsToken t) {p : Char → Bool}
    (hp : ∀ c, isGap c = true → p c = false) (w : Text) : begins p (w ++ t) = begins p w := by
  cases w with
  | cons c w => rfl
  | nil =>
    cases t with
    | nil => rfl
    | cons c t => exact hp c (ht c rfl)

theorem not_begins_of_gap (c : Char) (h : isGap c = true) :
    (c == '-') = false ∧ isAsciiLetter c = false := by
  obtain rfl | rfl := eq_of_isGap h
  · exact ⟨rfl, rfl⟩
  · exact ⟨rfl, rfl⟩

theorem EndsToken.isFlag_append (ht : EndsToken t) (w : Text) : isFlag (w ++ t) = isFlag w := by
  have hdash := ht.begins_append fun c hc => (not_begins_of_gap c hc).1
  have hletter := ht.begins_append fun c hc => (not_begins_of_gap c hc).2
  rw [isFlag, isFlag, hdash]
  cases w with
  | nil => rfl
  | cons c w =>
    rw [List.cons_append, List.tail_cons, List.tail_cons, hdash, hletter]
    cases w with
    | nil => rfl
    | cons d w => rw [List.cons_append, List.tail_cons, List.tail_cons, hletter]

theorem isFlag_of_isArgument (h : isArgument w = true) : isFlag w = false := by
  rw [isArgument, Bool.and_eq_true, Bool.not_eq_true'] at h
  rw [isFlag, h.1, Bool.false_and]

theorem reads_argument : argument.Reads back part rest ↔ ∃ u w, part = u ++ w ∧
    (u ≠ [] ∧ ∀ c ∈ u, isGap c = true) ∧ w ≠ [] ∧ isArgument w = true := by
  rw [argument, reads_sequence_cons]
  refine exists_congr fun u => exists_congr fun w => and_congr_right fun _ =>
    and_congr reads_many1_one ?_
  constructor
  · rintro ⟨v, r, rfl, ⟨c, rfl, hc⟩, hr⟩
    have hr := reads_many_one.mp hr
    rw [Bool.and_eq_true] at hc
    refine ⟨List.cons_ne_nil c r, ?_⟩
    rw [isArgument, Bool.and_eq_true, List.all_eq_true]
    exact ⟨hc.2, List.forall_mem_cons.mpr ⟨hc.1, hr⟩⟩
  · rintro ⟨hne, h⟩
    obtain ⟨c, r, rfl⟩ := List.exists_cons_of_ne_nil hne
    rw [isArgument, Bool.and_eq_true, List.all_eq_true, List.forall_mem_cons] at h
    obtain ⟨hdash, hc, hr⟩ := h
    refine ⟨[c], r, rfl, ⟨c, rfl, ?_⟩, reads_many_one.mpr hr⟩
    rw [Bool.and_eq_true]
    exact ⟨hc, hdash⟩

theorem meets_flagParts : (sequence flagParts).Meets back t ↔ isFlag t = true := by
  have hletter (back : Option Char) (t : Text) :
      (sequence [one isAsciiLetter, many (one fun c => isWordChar c || c == '-')]).Meets back t ↔
        begins isAsciiLetter t = true := by
    rw [meets_one_cons]
    cases t with
    | nil => simp [begins]
    | cons c t => simp [begins, meets_many_one]
  have hdash (back : Option Char) (t : Text) (ps : List Pattern) :
      (sequence (char '-' :: ps)).Meets back t ↔
        begins (· == '-') t = true ∧ (sequence ps).Meets (some '-') t.tail := by
    rw [char, meets_one_cons]
    cases t with
    | nil => simp [begins]
    | cons c t =>
      simp only [begins, List.head?_cons, Option.any_some, List.tail_cons, beq_iff_eq]
      constructor
      · rintro ⟨d, r, h, rfl, hr⟩
        obtain ⟨rfl, rfl⟩ := List.cons.inj h
        exact ⟨rfl, hr⟩
      · rintro ⟨rfl, hr⟩
        exact ⟨_, t, rfl, rfl, hr⟩
  rw [flagParts, hdash, meets_optional_cons, hdash, hletter, hletter, isFlag, Bool.and_eq_true,
    Bool.or_eq_true, Bool.and_eq_true, or_comm]

end Arguments

section Line

theorem not_isGap_of_isArgument (h : isArgument w = true) : ∀ c ∈ w, isGap c = false := by
  rw [isArgument, Bool.and_eq_true, List.all_eq_true] at h
  exact fun c hc => isGap_eq_false (by simpa using h.2 c hc)

theorem endsToken_arguments (h : (many argument).Reads back part rest) (hrest : EndsToken rest) :
    EndsToken (part ++ rest) := by
  cases h with
  | nil => exact hrest
  | cons hne hpart hmore =>
    obtain ⟨u, w, rfl, ⟨hu, hgap⟩, -⟩ := reads_argument.mp hpart
    rw [List.append_assoc, List.append_assoc]
    exact .of_gap_append hu hgap _

theorem reachesFlag_arguments (h : (many argument).Reads back part rest) (hrest : EndsToken rest) :
    reachesFlag (tokens (part ++ rest)) = reachesFlag (tokens rest) := by
  induction h with
  | nil back rest => rfl
  | cons hne hpart hmore ih =>
    obtain ⟨u, w, rfl, ⟨-, hgap⟩, hw, harg⟩ := reads_argument.mp hpart
    have hends := endsToken_arguments hmore hrest
    rw [List.append_assoc, List.append_assoc, tokens_gap_append hgap,
      tokens_append hw (not_isGap_of_isArgument harg) hends, reachesFlag,
      List.dropWhile_cons_of_pos harg, ← reachesFlag, ih hrest]

theorem reachesFlag_of_isFlag (h : isFlag t = true) : reachesFlag (tokens t) = true := by
  obtain ⟨r, rfl⟩ : ∃ r, t = '-' :: r := by
    cases t with
    | nil => cases h
    | cons c r =>
      rw [isFlag, Bool.and_eq_true] at h
      obtain rfl : c = '-' := by simpa [begins] using h.1
      exact ⟨r, rfl⟩
  obtain ⟨w, t, hr, hne, hw, ht⟩ := exists_token (c := '-') rfl r
  rw [hr, ht.isFlag_append] at h
  have harg : ¬ isArgument w = true := fun harg => by
    cases h.symm.trans (isFlag_of_isArgument harg)
  rw [hr, tokens_append hne hw ht, reachesFlag, List.dropWhile_cons_of_neg harg]
  exact h

theorem reachesFlag_of_meets
    (h : (sequence (many argument :: indentation :: flagParts)).Meets back t) :
    EndsToken t ∧ reachesFlag (tokens t) = true := by
  obtain ⟨v, r, rfl, hrow, h⟩ := meets_sequence_cons.mp h
  obtain ⟨u, r, rfl, hu, h⟩ := meets_sequence_cons.mp h
  obtain ⟨hne, hgap⟩ := reads_many1_one.mp hu
  have hends : EndsToken (u ++ r) := .of_gap_append hne hgap r
  refine ⟨endsToken_arguments hrow hends, ?_⟩
  rw [reachesFlag_arguments hrow hends, tokens_gap_append hgap]
  exact reachesFlag_of_isFlag (meets_flagParts.mp h)

theorem meets_of_reachesFlag (ht : EndsToken t) (h : reachesFlag (tokens t) = true) :
    (sequence (many argument :: indentation :: flagParts)).Meets back t := by
  generalize hws : tokens t = ws at h
  induction ws generalizing back t with
  | nil => cases h
  | cons w ws ih =>
    obtain ⟨u, r, rfl, hu, hne, hr, rfl⟩ := ht.exists_gap hws
    by_cases harg : isArgument w = true
    · rw [reachesFlag, List.dropWhile_cons_of_pos harg, ← reachesFlag] at h
      have hmore := @ih (behind back (u ++ w)) r hr rfl h
      obtain ⟨v, r', rfl, hrow, hflag⟩ := meets_sequence_cons.mp hmore
      have hpart : argument.Reads back (u ++ w) (v ++ r') :=
        reads_argument.mpr ⟨u, w, rfl, hu, hne, harg⟩
      have hrow' : (many argument).Reads back (u ++ w ++ v) r' := .cons (by simp [hne]) hpart hrow
      refine meets_sequence_cons.mpr ⟨u ++ w ++ v, r', by simp, hrow', ?_⟩
      rwa [behind_append]
    · -- the token is the flag, and no argument stands before it
      rw [reachesFlag, List.dropWhile_cons_of_neg harg] at h
      refine meets_sequence_cons.mpr ⟨[], _, rfl, .nil _ _, ?_⟩
      refine meets_sequence_cons.mpr ⟨u, _, rfl, reads_many1_one.mpr hu, ?_⟩
      rw [meets_flagParts, hr.isFlag_append]
      exact h

theorem meets_arguments : (sequence (many argument :: indentation :: flagParts)).Meets back t ↔
    EndsToken t ∧ reachesFlag (tokens t) = true :=
  ⟨reachesFlag_of_meets, fun ⟨ht, h⟩ => meets_of_reachesFlag ht h⟩

theorem scriptWords_closed : ∀ s ∈ scriptWords,
    isWord s.toList.getLast? = true ∧ ∀ c ∈ s.toList, isGap c = false := by
  have h : ∀ s ∈ scriptWords, isWord s.toList.getLast? = true ∧ s.toList.any isGap = false := by
    decide
  intro s hs
  obtain ⟨hlast, hgap⟩ := h s hs
  exact ⟨hlast, fun c hc => by simpa using List.any_eq_false.mp hgap c hc⟩

theorem EndsToken.isWord_head? (ht : EndsToken t) : isWord t.head? = false := by
  cases t with
  | nil => rfl
  | cons c t => exact isWord_of_isBlank (isBlank_of_isGap (ht c rfl))

theorem opensScript_iff : opensScript w = true ↔
    ∃ s ∈ scriptWords, ∃ r, w = s.toList ++ r ∧ isWord r.head? = false := by
  simp only [opensScript, List.any_eq_true, Bool.and_eq_true, List.isPrefixOf_iff_prefix,
    Bool.not_eq_true', ← String.length_toList]
  refine exists_congr fun s => and_congr_right fun _ => ?_
  constructor
  · rintro ⟨⟨r, rfl⟩, h⟩
    exact ⟨r, rfl, by simpa using h⟩
  · rintro ⟨r, rfl, h⟩
    exact ⟨⟨r, rfl⟩, by simpa using h⟩

theorem meets_scriptWords : (Pattern.seq (words scriptWords) wordEdge).Meets none t ↔
    ∃ s ∈ scriptWords, ∃ r, t = s.toList ++ r ∧ isWord r.head? = false := by
  have hedge {s : String} (hs : s ∈ scriptWords) (r : Text) :
      Place.atWordEdge ⟨behind none s.toList, r⟩ = true ↔ isWord r.head? = false := by
    rw [Place.atWordEdge, ← isWord, ← isWord, behind_none, (scriptWords_closed s hs).1]
    simp
  constructor
  · rintro ⟨part, r, h, v, x, rfl, hv, rfl, hx⟩
    obtain ⟨s, hs, rfl⟩ := reads_words.mp hv
    exact ⟨s, hs, r, by simpa using h, (hedge hs r).mp hx⟩
  · rintro ⟨s, hs, r, h, hr⟩
    exact ⟨s.toList, r, h, s.toList, [], by simp, reads_words.mpr ⟨s, hs, rfl⟩, rfl,
      (hedge hs r).mpr hr⟩

theorem meets_scriptWords_append (ht : EndsToken t) :
    (Pattern.seq (words scriptWords) wordEdge).Meets none (w ++ t) ↔ opensScript w = true := by
  rw [meets_scriptWords, opensScript_iff]
  refine exists_congr fun s => and_congr_right fun hs => ?_
  constructor
  · rintro ⟨r, h, hr⟩
    obtain ⟨x, hx, rfl⟩ | ⟨x, rfl, rfl⟩ := List.append_eq_append_iff.mp h
    · cases x with
      | nil => exact ⟨[], by simpa using hx.symm, rfl⟩
      | cons c x =>
        -- no word of scripts goes on behind the token
        have hc := (scriptWords_closed s hs).2 c (by simp [hx])
        cases hc.symm.trans (ht c rfl)
    · exact ⟨x, rfl, by rwa [isWord_head?_append_of ht.isWord_head?] at hr⟩
  · rintro ⟨r, rfl, hr⟩
    exact ⟨r ++ t, List.append_assoc .., by rwa [isWord_head?_append_of ht.isWord_head?]⟩

end Line

section Command

def commandParts : List Pattern :=
  notAhead (.seq (words scriptWords) wordEdge) :: one isAsciiLower ::
    many (one fun c => isWordChar c || c == '.' || c == '-') :: many argument :: indentation ::
    flagParts

theorem flaggedCommand_eq : flaggedCommand = .seq lineStart (sequence commandParts) := rfl

theorem inLine_commandParts : ∀ p ∈ commandParts, InLine p := by
  have hgap : InLine indentation := (inLine_one (by decide)).seq (inLine_one (by decide)).many
  have hargument : InLine argument := inLine_sequence <| by
    simp only [List.mem_cons, List.not_mem_nil, or_false, forall_eq_or_imp, forall_eq]
    exact ⟨hgap, inLine_one (by decide), (inLine_one (by decide)).many⟩
  simp only [commandParts, flagParts, List.mem_cons, List.not_mem_nil, or_false, forall_eq_or_imp,
    forall_eq]
  refine ⟨?_, inLine_one (by decide), (inLine_one (by decide)).many, hargument.many, hgap,
    inLine_one (by decide), (inLine_one (by decide)).alt inLine_empty, inLine_one (by decide),
    (inLine_one (by decide)).many⟩
  exact ((inLine_words (by decide)).seq inLine_wordEdge).notAhead

theorem isCommandName_iff : isCommandName name = true ↔
    ∃ c r, name = c :: r ∧ isAsciiLower c = true ∧ ∀ d ∈ r, isNameChar d = true := by
  cases name with
  | nil => simp [isCommandName]
  | cons c r => simp [isCommandName]

theorem isNameChar_of_isCommandName (h : isCommandName name = true) :
    ∀ c ∈ name, isNameChar c = true := by
  obtain ⟨c, r, rfl, hc, hr⟩ := isCommandName_iff.mp h
  refine List.forall_mem_cons.mpr ⟨?_, hr⟩
  simp [isNameChar, isWordChar, isAlphanumeric, isAsciiLetter, hc]

theorem isGap_of_isCommandName (h : isCommandName name = true) : ∀ c ∈ name, isGap c = false := by
  intro c hc
  by_contra hgap
  obtain rfl | rfl := eq_of_isGap (by simpa using hgap)
  · cases isNameChar_of_isCommandName h _ hc
  · cases isNameChar_of_isCommandName h _ hc

theorem exists_endsToken (hl : tokens l = name :: args) (h : name <+: l) :
    ∃ t, l = name ++ t ∧ EndsToken t ∧ tokens t = args := by
  obtain ⟨u, t, rfl, hu, hne, hname, ht, hargs⟩ := exists_tokens hl
  obtain ⟨c, r, rfl⟩ := List.exists_cons_of_ne_nil hne
  cases u with
  | nil => exact ⟨t, rfl, ht, hargs⟩
  | cons d u =>
    obtain ⟨rfl, -⟩ := List.cons_prefix_cons.mp h
    cases (hname c List.mem_cons_self).symm.trans (hu c List.mem_cons_self)

theorem showsFlag_iff : showsFlag l = true ↔ ∃ name t, l = name ++ t ∧ isCommandName name = true ∧
    opensScript name = false ∧ EndsToken t ∧ reachesFlag (tokens t) = true := by
  constructor
  · intro h
    rw [showsFlag] at h
    cases hl : tokens l with
    | nil => simp [hl] at h
    | cons name args =>
      simp only [hl, Bool.and_eq_true, List.isPrefixOf_iff_prefix, Bool.not_eq_true'] at h
      obtain ⟨⟨⟨hfront, hname⟩, hscript⟩, hreach⟩ := h
      obtain ⟨t, rfl, ht, rfl⟩ := exists_endsToken hl hfront
      exact ⟨name, t, rfl, hname, hscript, ht, hreach⟩
  · rintro ⟨name, t, rfl, hname, hscript, ht, hreach⟩
    have hne : name ≠ [] := by
      rintro rfl
      cases hname
    rw [showsFlag, tokens_append hne (isGap_of_isCommandName hname) ht]
    simp [hname, hscript, hreach]

theorem startsText_commandParts (l : Text) :
    (sequence commandParts).startsText l = showsFlag l := by
  rw [Bool.eq_iff_iff, startsText_iff, ← Meets, showsFlag_iff, commandParts, meets_notAhead_cons,
    meets_one_cons]
  constructor
  · rintro ⟨hscript, c, r, rfl, hc, h⟩
    obtain ⟨v, t, rfl, hv, h⟩ := meets_sequence_cons.mp h
    obtain ⟨ht, hreach⟩ := meets_arguments.mp h
    rw [← List.cons_append, meets_scriptWords_append ht, Bool.not_eq_true] at hscript
    have hname : isCommandName (c :: v) = true :=
      isCommandName_iff.mpr ⟨c, v, rfl, hc, reads_many_one.mp hv⟩
    exact ⟨c :: v, t, rfl, hname, hscript, ht, hreach⟩
  · rintro ⟨name, t, rfl, hname, hscript, ht, hreach⟩
    refine ⟨by rwa [meets_scriptWords_append ht, Bool.not_eq_true], ?_⟩
    obtain ⟨c, v, rfl, hc, hv⟩ := isCommandName_iff.mp hname
    refine ⟨c, v ++ t, rfl, hc, meets_sequence_cons.mpr ⟨v, t, rfl, reads_many_one.mpr hv, ?_⟩⟩
    exact meets_arguments.mpr ⟨ht, hreach⟩

theorem flaggedCommand_occursIn (t : Text) :
    flaggedCommand.occursIn t = (lines t).any showsFlag := by
  rw [flaggedCommand_eq, (inLine_sequence inLine_commandParts).occursIn_lineStart]
  exact congrArg (List.any (lines t)) (funext startsText_commandParts)

/-- A line that begins with the name of a command, which is no word of scripts, and has a flag among
its other tokens. -/
structure IsFlagged (l name : Text) (args : List Text) : Prop where
  cut : tokens l = name :: args
  front : name <+: l
  named : isCommandName name = true
  script : ∀ s ∈ scriptWords, s.toList ≠ name
  flag : ∃ w ∈ args, isFlag w = true

/-- A word of scripts begins the name, and a full stop or a dash stands behind it. -/
def HidesName (name : Text) : Prop :=
  ∃ s ∈ scriptWords, s.toList ++ ['.'] <+: name ∨ s.toList ++ ['-'] <+: name

instance (name : Text) : Decidable (HidesName name) :=
  inferInstanceAs (Decidable (∃ s ∈ scriptWords, _))

theorem opensScript_iff_hidesName (h : isCommandName name = true)
    (hs : ∀ s ∈ scriptWords, s.toList ≠ name) : opensScript name = true ↔ HidesName name := by
  rw [opensScript_iff]
  refine exists_congr fun s => and_congr_right fun hmem => ?_
  constructor
  · rintro ⟨r, rfl, hr⟩
    cases r with
    | nil => exact absurd (List.append_nil _).symm (hs s hmem)
    | cons d r =>
      have hd : isNameChar d = true := isNameChar_of_isCommandName h d (by simp)
      have hword : isWordChar d = false := hr
      obtain rfl | rfl : d = '.' ∨ d = '-' := by simpa [isNameChar, hword] using hd
      · exact .inl ⟨r, by simp⟩
      · exact .inr ⟨r, by simp⟩
  · rintro (⟨r, rfl⟩ | ⟨r, rfl⟩)
    · exact ⟨'.' :: r, by simp, rfl⟩
    · exact ⟨'-' :: r, by simp, rfl⟩

theorem reachesFlag_iff (h : ∃ w ∈ args, isFlag w = true) : reachesFlag args = true ↔
    ∀ w ∈ args.takeWhile (!isFlag ·), isArgument w = true := by
  induction args with
  | nil => simp at h
  | cons w args ih =>
    by_cases harg : isArgument w = true
    · have hw : isFlag w = false := isFlag_of_isArgument harg
      have hflag : ∃ w ∈ args, isFlag w = true := by simpa [hw] using h
      rw [reachesFlag, List.dropWhile_cons_of_pos harg, ← reachesFlag, ih hflag,
        List.takeWhile_cons_of_pos (by simp [hw]), List.forall_mem_cons]
      simp [harg]
    · rw [reachesFlag, List.dropWhile_cons_of_neg harg]
      cases hw : isFlag w with
      | true => simp [hw]
      | false => simp [hw, harg]

theorem IsFlagged.showsFlag_iff (h : IsFlagged l name args) : showsFlag l = true ↔
    ¬ HidesName name ∧ ∀ w ∈ args.takeWhile (!isFlag ·), isArgument w = true := by
  rw [← opensScript_iff_hidesName h.named h.script, ← reachesFlag_iff h.flag, showsFlag, h.cut]
  simp [h.front, h.named]

/-- Content with a flagged line of a command is taken for shell exactly if it is no JSON and the
flag can be seen, or there is a flag on another line, or a sign of another kind. -/
theorem flagged_line_seen_iff (hl : l ∈ lines t) (h : IsFlagged l name args) :
    hasShellSigns t = .ok true ↔ isJson t = .ok false ∧
      (¬ HidesName name ∧ (∀ w ∈ args.takeWhile (!isFlag ·), isArgument w = true) ∨
        (∃ l' ∈ lines t, l' ≠ l ∧ showsFlag l' = true) ∨
        ∃ s ≠ .flag, ShellSign.isIn t s = true) := by
  have hflag : ShellSign.isIn t .flag = true ↔
      showsFlag l = true ∨ ∃ l' ∈ lines t, l' ≠ l ∧ showsFlag l' = true := by
    rw [ShellSign.isIn, flaggedCommand_occursIn, List.any_eq_true]
    constructor
    · rintro ⟨l', hl', h'⟩
      by_cases heq : l' = l
      · exact .inl (heq ▸ h')
      · exact .inr ⟨l', hl', heq, h'⟩
    · rintro (h' | ⟨l', hl', -, h'⟩)
      · exact ⟨l, hl, h'⟩
      · exact ⟨l', hl', h'⟩
  rw [hasShellSigns_iff_or .flag, hflag, h.showsFlag_iff, or_assoc]

/-- A flag behind a file's name and a path, on the second line. -/
theorem flagged_line_seen_iff_after_paths :
    let l : Text := "rsync src/a.md\tdocs --exclude=b".toList
    let name : Text := "rsync".toList
    let args : List Text := ["src/a.md".toList, "docs".toList, "--exclude=b".toList]
    let t : Text := "# copy\n".toList ++ l
    l ∈ lines t ∧ IsFlagged l name args ∧ hasShellSigns t = .ok true := by
  intro l name args t
  have hl : l ∈ lines t := by decide
  have h : IsFlagged l name args := ⟨by decide, by decide, by decide, by decide, by decide⟩
  exact ⟨hl, h, (flagged_line_seen_iff hl h).mpr ⟨by decide, .inl ⟨by decide, by decide⟩⟩⟩

/-- A command whose name begins with a word of scripts and a dash, and one with a digit for its
first option, are not seen. -/
theorem flagged_line_unseen :
    let t : Text := "type-check --watch".toList
    let t' : Text := "xargs -0 -n 1".toList
    IsFlagged t "type-check".toList ["--watch".toList] ∧
      lines t = [t] ∧ isJson t = .ok false ∧ hasShellSigns t = .ok false ∧
      IsFlagged t' "xargs".toList ["-0".toList, "-n".toList, "1".toList] ∧
      lines t' = [t'] ∧ isJson t' = .ok false ∧ hasShellSigns t' = .ok false := by
  intro t t'
  refine ⟨⟨?_, ?_, ?_, ?_, ?_⟩, ?_, ?_, ?_, ⟨?_, ?_, ?_, ?_, ?_⟩, ?_, ?_, ?_⟩ <;> decide +kernel

end Command

end MarkdownFences.Snippet
