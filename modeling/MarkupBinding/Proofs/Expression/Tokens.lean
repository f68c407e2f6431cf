import MarkupBinding.Proofs.Expression.NormalForm

/-!
# The tokens of a text

Scanning loses no character of a text, and takes an escaped opening wherever the text has one
(`Token.tokenize_lossless_escapes_first`).

The argument does not follow the scan along the text. The tokens of a text are the only separated
ones that make it up (`Token.scan_eq_iff`): runs are not empty and hold ordinary characters only, no
two runs meet, and no dollar sign stands in front of what it would make an opening with. So a text
may be scanned in two parts whenever the tokens of both are separated at the border
(`Token.scan_append`). In front of an escaped opening this is so for every text, however many dollar
signs it ends in (`Token.scan_append_escapedOpen`), and in front of a plain opening for the texts
that end in none (`Token.scan_append_opened`). That runs are maximal, and that no opening follows a
dollar sign, is read off the separated tokens.
-/

set_option autoImplicit false
set_option relaxedAutoImplicit false

namespace MarkupBinding

namespace Token

/-! ### Separated tokens -/

/-- A character that is neither a dollar sign nor a closing brace. -/
def IsOrdinary (c : Char) : Prop :=
  c ≠ '$' ∧ c ≠ '\x7d'

/-- A run is not empty and holds ordinary characters only. -/
def WellFormed : Token → Prop
  | run chars => chars ≠ [] ∧ ∀ c ∈ chars, IsOrdinary c
  | _ => True

/-- Runs never meet, and a dollar sign never stands in front of a brace or an opening, with which it
would make an opening or an escaped one. -/
def MayPrecede : Token → Token → Prop
  | dollar, next => ¬ Bracing next.chars
  | run _, run _ => False
  | _, _ => True

/-- Tokens that are scanned as they are when they are written one after the other. -/
structure Separated (tokens : List Token) : Prop where
  wellFormed : ∀ t ∈ tokens, t.WellFormed
  neighbours : tokens.IsChain MayPrecede

section Separated

variable {t : Token} {tokens : List Token} {cs front back : List Char}

theorem separated_cons_iff :
    Separated (t :: tokens) ↔
      t.WellFormed ∧ (∀ next ∈ tokens.head?, t.MayPrecede next) ∧ Separated tokens := by
  constructor
  · intro h
    obtain ⟨ht, hrest⟩ := List.forall_mem_cons.1 h.wellFormed
    obtain ⟨hnext, hchain⟩ := List.isChain_cons.1 h.neighbours
    exact ⟨ht, hnext, hrest, hchain⟩
  · rintro ⟨ht, hnext, h⟩
    exact ⟨List.forall_mem_cons.2 ⟨ht, h.wellFormed⟩, h.neighbours.cons hnext⟩

theorem separated_append_iff {others : List Token} :
    Separated (tokens ++ others) ↔ Separated tokens ∧ Separated others ∧
      ∀ last ∈ tokens.getLast?, ∀ next ∈ others.head?, last.MayPrecede next := by
  constructor
  · intro h
    obtain ⟨hfront, hback⟩ := List.forall_mem_append.1 h.wellFormed
    obtain ⟨hleft, hright, hborder⟩ := List.isChain_append.1 h.neighbours
    exact ⟨⟨hfront, hleft⟩, ⟨hback, hright⟩, hborder⟩
  · rintro ⟨hfront, hback, hborder⟩
    exact ⟨List.forall_mem_append.2 ⟨hfront.wellFormed, hback.wellFormed⟩,
      hfront.neighbours.append hback.neighbours hborder⟩

/-- Scanning loses no character. -/
theorem flatMap_chars_scan (cs : List Char) : (scan cs).flatMap chars = cs := by
  fun_induction scan cs with
  | case1 => rfl
  | case2 rest ih | case3 rest ih | case5 rest ih => rw [List.flatMap_cons, ih]; rfl
  | case4 rest _ _ ih => rw [List.flatMap_cons, ih]; rfl
  | case6 c rest _ _ _ _ chars tokens hrun ih =>
    rw [hrun, List.flatMap_cons] at ih
    rw [List.flatMap_cons, ← ih]
    rfl
  | case7 c rest _ _ _ _ _ ih => rw [List.flatMap_cons, ih]; rfl

/-- The characters of the first token begin the text. -/
theorem chars_prefix_of_scan (h : t ∈ (scan cs).head?) : t.chars <+: cs := by
  obtain ⟨tokens, htokens⟩ := List.head?_eq_some_iff.1 h
  refine ⟨tokens.flatMap chars, ?_⟩
  rw [← List.flatMap_cons, ← htokens, flatMap_chars_scan]

/-- The characters of the last token end the text. -/
theorem chars_suffix_of_scan (h : t ∈ (scan cs).getLast?) : t.chars <:+ cs := by
  obtain ⟨tokens, htokens⟩ := List.getLast?_eq_some_iff.1 h
  refine ⟨tokens.flatMap chars, ?_⟩
  rw [← flatMap_chars_scan cs, htokens, List.flatMap_append, List.flatMap_singleton]

theorem Bracing.mono (h : Bracing front) (hbegins : front <+: cs) : Bracing cs :=
  h.imp (·.trans hbegins) (·.trans hbegins)

theorem separated_scan (cs : List Char) : Separated (scan cs) := by
  fun_induction scan cs with
  | case1 => exact ⟨fun _ h ↦ absurd h List.not_mem_nil, List.IsChain.nil⟩
  | case2 rest ih | case3 rest ih | case5 rest ih =>
    exact separated_cons_iff.2 ⟨trivial, fun _ _ ↦ trivial, ih⟩
  | case4 rest hescaped hopened ih =>
    refine separated_cons_iff.2 ⟨trivial, fun next hnext hbracing ↦ ?_, ih⟩
    have hbegins := chars_prefix_of_scan hnext
    rcases hbracing with hbrace | hopen
    · obtain ⟨tail, htail⟩ := hbrace.trans hbegins
      exact hopened tail htail.symm
    · obtain ⟨tail, htail⟩ := hopen.trans hbegins
      exact hescaped tail htail.symm
  | case6 c rest hescaped hopened hdollar hclosed characters tokens hrun ih =>
    rw [hrun] at ih
    obtain ⟨⟨-, hordinary⟩, hnext, hrest⟩ := separated_cons_iff.1 ih
    refine separated_cons_iff.2 ⟨⟨List.cons_ne_nil _ _, ?_⟩, fun next hfollows ↦ ?_, hrest⟩
    · exact List.forall_mem_cons.2 ⟨⟨hdollar, hclosed⟩, hordinary⟩
    · have hprecedes := hnext next hfollows
      cases next with
      | run more => exact hprecedes
      | escapedOpen | opened | closed | dollar => trivial
  | case7 c rest hescaped hopened hdollar hclosed hrun ih =>
    refine separated_cons_iff.2 ⟨⟨List.cons_ne_nil _ _, ?_⟩, fun next hnext ↦ ?_, ih⟩
    · exact List.forall_mem_singleton.2 ⟨hdollar, hclosed⟩
    · obtain ⟨tokens, htokens⟩ := List.head?_eq_some_iff.1 hnext
      cases next with
      | run characters => exact hrun characters tokens htokens
      | escapedOpen | opened | closed | dollar => trivial

/-- Ordinary characters are one run in front of a text that begins with no run. -/
theorem scan_run_append {characters : List Char} (hne : characters ≠ [])
    (hordinary : ∀ c ∈ characters, IsOrdinary c)
    (hback : ∀ more, (scan back).head? ≠ some (run more)) :
    scan (characters ++ back) = run characters :: scan back := by
  induction characters with
  | nil => exact absurd rfl hne
  | cons c rest ih =>
    obtain ⟨⟨hdollar, hclosed⟩, hrest⟩ := List.forall_mem_cons.1 hordinary
    rw [List.cons_append]
    rcases eq_or_ne rest [] with rfl | hmore
    · rcases scan_ordinary hdollar hclosed with ⟨more, tokens, hscan, -⟩ | hscan
      · exact absurd (by rw [hscan]; rfl) (hback more)
      · exact hscan
    · have hbehind := ih hmore hrest
      rcases scan_ordinary hdollar hclosed with ⟨more, tokens, hscan, hwhole⟩ | hscan
      · obtain ⟨hhead, rfl⟩ := List.cons.inj (hscan.symm.trans hbehind)
        obtain rfl := Token.run.inj hhead
        exact hwhole
      · -- a run of its own would meet the run behind it
        have hseparated := separated_scan (c :: (rest ++ back))
        rw [hscan, hbehind] at hseparated
        obtain ⟨-, hnext, -⟩ := separated_cons_iff.1 hseparated
        exact absurd (hnext _ rfl) id

/-- A text that begins with a brace or an opening is scanned into a first token that does. -/
theorem exists_bracing_of_scan (h : Bracing cs) :
    ∃ next ∈ (scan cs).head?, Bracing next.chars := by
  rcases h with ⟨tail, rfl⟩ | ⟨tail, rfl⟩
  · obtain ⟨more, tokens, -, hscan⟩ | hscan : _ ∨ scan ('\x7b' :: tail) = _ :=
      scan_ordinary (by decide) (by decide)
    · exact ⟨run ('\x7b' :: more), by rw [List.singleton_append, hscan]; rfl, Or.inl ⟨more, rfl⟩⟩
    · exact ⟨run ['\x7b'], by rw [List.singleton_append, hscan]; rfl, Or.inl ⟨[], rfl⟩⟩
  · exact ⟨opened, rfl, Or.inr ⟨[], rfl⟩⟩

/-- Separated tokens are those of the text that they make up. -/
theorem scan_flatMap_chars (h : Separated tokens) : scan (tokens.flatMap chars) = tokens := by
  induction tokens with
  | nil => rfl
  | cons t rest ih =>
    obtain ⟨ht, hnext, htail⟩ := separated_cons_iff.1 h
    have hrest := ih htail
    rw [List.flatMap_cons]
    cases t with
    | escapedOpen | opened | closed => exact congrArg (_ :: ·) hrest
    | dollar =>
      -- the characters behind the dollar sign matter, and the first token shows how they begin
      have hapart : Apart ['$'] (rest.flatMap chars) := by
        intro _ hbracing
        obtain ⟨next, hhead, hjoins⟩ := exists_bracing_of_scan hbracing
        rw [hrest] at hhead
        exact hnext next hhead hjoins
      exact (scan_dollar hapart).trans (congrArg (_ :: ·) hrest)
    | run characters =>
      obtain ⟨hne, hordinary⟩ := ht
      have hback : ∀ more, (scan (rest.flatMap chars)).head? ≠ some (run more) := by
        rw [hrest]
        exact fun more hmore ↦ hnext _ hmore
      exact (scan_run_append hne hordinary hback).trans (congrArg (_ :: ·) hrest)

/-- The tokens of a text are the only separated ones that make it up. -/
theorem scan_eq_iff : scan cs = tokens ↔ Separated tokens ∧ tokens.flatMap chars = cs := by
  constructor
  · rintro rfl
    exact ⟨separated_scan cs, flatMap_chars_scan cs⟩
  · rintro ⟨hseparated, rfl⟩
    exact scan_flatMap_chars hseparated

/-- A text is scanned in two parts where the second does not go on with a run and the first is apart
from it. -/
theorem scan_append (hapart : Apart front back) (hback : ∀ c ∈ back.head?, ¬ IsOrdinary c) :
    scan (front ++ back) = scan front ++ scan back := by
  refine scan_eq_iff.2 ⟨separated_append_iff.2
    ⟨separated_scan front, separated_scan back, fun last hlast next hnext ↦ ?_⟩, ?_⟩
  · have hbegins := chars_prefix_of_scan hnext
    cases last with
    | escapedOpen | opened | closed => trivial
    | dollar =>
      obtain ⟨init, rfl⟩ := chars_suffix_of_scan hlast
      exact fun hbracing ↦ hapart List.getLast?_concat (hbracing.mono hbegins)
    | run characters =>
      cases next with
      | escapedOpen | opened | closed | dollar => trivial
      | run more =>
        obtain ⟨hne, hordinary⟩ := (separated_scan back).wellFormed _ (List.mem_of_mem_head? hnext)
        obtain ⟨c, rest, rfl⟩ := List.exists_cons_of_ne_nil hne
        obtain ⟨tail, rfl⟩ := hbegins
        exact hback c rfl (hordinary c List.mem_cons_self)
  · rw [List.flatMap_append, flatMap_chars_scan, flatMap_chars_scan]

/-- An escaped opening is one token, whatever stands in front of it and behind it. -/
theorem scan_append_escapedOpen (front back : List Char) :
    scan (front ++ escapedOpen.chars ++ back) = scan front ++ escapedOpen :: scan back := by
  rw [List.append_assoc]
  refine scan_append (fun _ hbracing ↦ ?_) fun c hc hordinary ↦ ?_
  · simp [Bracing, openChars, Token.chars] at hbracing
  · obtain rfl := Option.some.inj hc
    exact hordinary.1 rfl

/-- An opening is one token behind a text that does not end in a dollar sign. -/
theorem scan_append_opened (hlast : front.getLast? ≠ some '$') (back : List Char) :
    scan (front ++ openChars ++ back) = scan front ++ opened :: scan back := by
  rw [List.append_assoc]
  refine scan_append (fun hdollar ↦ absurd hdollar hlast) fun c hc hordinary ↦ ?_
  obtain rfl := Option.some.inj hc
  exact hordinary.1 rfl

/-! ### Runs and positions -/

@[simp]
theorem toList_text (t : Token) : t.text.toList = t.chars :=
  String.toList_ofList

theorem WellFormed.chars_ne_nil (h : t.WellFormed) : t.chars ≠ [] := by
  cases t with
  | escapedOpen | opened | closed | dollar => exact List.cons_ne_nil _ _
  | run characters => exact h.1

/-- The first character of separated tokens is that of the first token. -/
theorem Separated.exists_first (h : Separated tokens) {c : Char}
    (hc : c ∈ (tokens.flatMap chars).head?) :
    ∃ first ∈ tokens.head?, c ∈ first.chars.head? := by
  cases tokens with
  | nil => cases hc
  | cons first rest =>
    have hne := (h.wellFormed first List.mem_cons_self).chars_ne_nil
    rw [List.flatMap_cons, List.head?_append_of_ne_nil _ hne] at hc
    exact ⟨first, rfl, hc⟩

/-- The last character of separated tokens is that of the last token. -/
theorem Separated.exists_last (h : Separated tokens) {c : Char}
    (hc : c ∈ (tokens.flatMap chars).getLast?) :
    ∃ init last, tokens = init ++ [last] ∧ c ∈ last.chars.getLast? := by
  rcases List.eq_nil_or_concat' tokens with rfl | ⟨init, last, rfl⟩
  · cases hc
  · have hne := (h.wellFormed last List.mem_concat_self).chars_ne_nil
    rw [List.flatMap_append, List.flatMap_singleton, List.getLast?_append_of_ne_nil _ hne] at hc
    exact ⟨init, last, rfl, hc⟩

/-- The characters form a maximal run between those before and those after them: there is no
ordinary character next to them, but for the brace of an opening that ends in front of them. -/
structure MaximalRun (before characters after : List Char) : Prop where
  ne_nil : characters ≠ []
  ordinary : ∀ c ∈ characters, IsOrdinary c
  begins : ∀ c ∈ before.getLast?, IsOrdinary c → openChars <:+ before
  ends : ∀ c ∈ after.head?, ¬ IsOrdinary c

/-- A run among separated tokens is maximal. -/
theorem maximalRun_of_separated {before after : List Token} {characters : List Char}
    (h : Separated (before ++ run characters :: after)) :
    MaximalRun (before.flatMap chars) characters (after.flatMap chars) := by
  obtain ⟨hbefore, hrest, hborder⟩ := separated_append_iff.1 h
  obtain ⟨⟨hne, hordinary⟩, hnext, hafter⟩ := separated_cons_iff.1 hrest
  refine ⟨hne, hordinary, fun c hc hplain ↦ ?_, fun c hc hplain ↦ ?_⟩
  · obtain ⟨init, last, rfl, hlast⟩ := hbefore.exists_last hc
    have hprecedes := hborder last List.getLast?_concat _ rfl
    rw [List.flatMap_append, List.flatMap_singleton]
    cases last with
    | escapedOpen => exact ⟨init.flatMap chars ++ ['$'], List.append_assoc ..⟩
    | opened => exact ⟨init.flatMap chars, rfl⟩
    | closed => exact absurd (Option.some.inj hlast).symm hplain.2
    | dollar => exact absurd (Option.some.inj hlast).symm hplain.1
    | run more => exact absurd hprecedes id
  · obtain ⟨first, hfirst, hhead⟩ := hafter.exists_first hc
    have hfollows := hnext first hfirst
    cases first with
    | escapedOpen | opened | dollar => exact hplain.1 (Option.some.inj hhead).symm
    | closed => exact hplain.2 (Option.some.inj hhead).symm
    | run more => exact hfollows

/-- No opening among separated tokens follows a dollar sign. -/
theorem getLast?_ne_of_separated {before after : List Token}
    (h : Separated (before ++ t :: after)) (ht : t.chars = openChars) :
    (before.flatMap chars).getLast? ≠ some '$' := by
  intro hdollar
  obtain ⟨hbefore, -, hborder⟩ := separated_append_iff.1 h
  obtain ⟨init, last, rfl, hlast⟩ := hbefore.exists_last hdollar
  have hprecedes := hborder last List.getLast?_concat _ rfl
  cases last with
  | escapedOpen | opened | closed => exact absurd (Option.some.inj hlast) (by decide)
  | dollar => exact hprecedes (Or.inr (ht ▸ List.prefix_rfl))
  | run characters =>
    obtain ⟨-, hordinary⟩ := hbefore.wellFormed _ List.mem_concat_self
    exact (hordinary _ (List.mem_of_mem_getLast? hlast)).1 rfl

/-- A token that reads as the given text begins at the position: the tokens in front of it have so
many characters. -/
def BeginsAt (s piece : String) (i : Nat) : Prop :=
  ∃ before t after, tokenize s = before ++ t :: after ∧ t.text = piece ∧
    (before.flatMap chars).length = i

section Position

variable {s piece : String} {i : Nat}

/-- A token divides the text at its position. -/
theorem BeginsAt.exists_split (h : BeginsAt s piece i) :
    ∃ before t after, Separated (before ++ t :: after) ∧ t.chars = piece.toList ∧
      s.toList.take i = before.flatMap chars ∧
      s.toList.drop i = piece.toList ++ after.flatMap chars := by
  obtain ⟨before, t, after, htokens, rfl, rfl⟩ := h
  have hs : s.toList = before.flatMap chars ++ (t.chars ++ after.flatMap chars) := by
    rw [← flatMap_chars_scan s.toList, ← tokenize, htokens, List.flatMap_append, List.flatMap_cons]
  refine ⟨before, t, after, htokens ▸ separated_scan s.toList, (toList_text t).symm, ?_, ?_⟩
  · rw [hs, List.take_left]
  · rw [hs, List.drop_left, toList_text]

/-- A token that is cut off behind the first characters of a text begins at their number. -/
theorem beginsAt_of_scan {t : Token} {back : List Char} (ht : t.WellFormed)
    (hdrop : t.chars ++ back = s.toList.drop i)
    (hscan : scan (s.toList.take i ++ t.chars ++ back) =
      scan (s.toList.take i) ++ t :: scan back) :
    BeginsAt s t.text i := by
  refine ⟨scan (s.toList.take i), t, scan back, ?_, rfl, ?_⟩
  · rw [tokenize, ← hscan, List.append_assoc, hdrop, List.take_append_drop]
  · have hlength := congrArg List.length hdrop
    have hpos := List.length_pos_iff.2 ht.chars_ne_nil
    rw [flatMap_chars_scan, List.length_take]
    rw [List.length_append, List.length_drop] at hlength
    omega

/-- The tokens one after the other are the text. -/
theorem join_tokenize (s : String) : String.join ((tokenize s).map Token.text) = s := by
  rw [← String.toList_inj, String.toList_join, List.flatMap_map]
  simp only [toList_text]
  exact flatMap_chars_scan s.toList

/-- Scanning is lossless, and escaped openings come first. The tokens one after the other are the
text. Each is an escaped opening, an opening, a closing brace, a dollar sign or a maximal run of
ordinary characters. An escaped opening begins wherever the text has its characters, and an opening
wherever the text has its characters and not a dollar sign in front of them. -/
theorem tokenize_lossless_escapes_first (s : String) :
    String.join ((tokenize s).map Token.text) = s ∧
      (∀ before t after, tokenize s = before ++ t :: after →
        t.text ∈ ["$$\x7b", "$\x7b", "\x7d", "$"] ∨
          MaximalRun (before.flatMap chars) t.text.toList (after.flatMap chars)) ∧
      (∀ i, BeginsAt s "$$\x7b" i ↔ "$$\x7b".toList <+: s.toList.drop i) ∧
      (∀ i, BeginsAt s "$\x7b" i ↔
        "$\x7b".toList <+: s.toList.drop i ∧ (s.toList.take i).getLast? ≠ some '$') := by
  refine ⟨join_tokenize s, fun before t after htokens ↦ ?_, fun i ↦ ⟨?_, ?_⟩, fun i ↦ ⟨?_, ?_⟩⟩
  · have hseparated := separated_scan s.toList
    rw [← tokenize, htokens] at hseparated
    cases t with
    | run characters =>
      rw [toList_text]
      exact Or.inr (maximalRun_of_separated hseparated)
    | escapedOpen | opened | closed | dollar => exact Or.inl (by decide)
  · intro h
    obtain ⟨before, t, after, -, -, -, hdrop⟩ := h.exists_split
    exact ⟨_, hdrop.symm⟩
  · rintro ⟨back, hdrop⟩
    exact beginsAt_of_scan (t := escapedOpen) trivial hdrop (scan_append_escapedOpen _ back)
  · intro h
    obtain ⟨before, t, after, hseparated, ht, htake, hdrop⟩ := h.exists_split
    rw [htake]
    exact ⟨⟨_, hdrop.symm⟩, getLast?_ne_of_separated hseparated ht⟩
  · rintro ⟨⟨back, hdrop⟩, hlast⟩
    exact beginsAt_of_scan (t := opened) trivial hdrop (scan_append_opened hlast back)

/-- Of four dollar signs in front of a brace the last two belong to the escaped opening. -/
example : (tokenize "$$$$\x7bname\x7d").map Token.text = ["$", "$", "$$\x7b", "name", "\x7d"] := by
  decide

end Position

end Separated

end Token

end MarkupBinding
