import BraceTemplate.Proofs.Lexing.Tiles
import BraceTemplate.Proofs.Parsing.Grammar

/- Brace groups. `Token.pieces` cuts tokens wherever no brace is open, so a piece is a token
   outside all braces or a brace group from its first brace to the one that closes it. An event
   takes up exactly one piece (`Event.Written.piece`), so tokens are written events when each of
   their pieces is one (`Event.writes_iff_pieces`). Of tokens that the lexer made only texts,
   comments and opening braces stand outside all groups (`Token.Nested`), and reading an event
   ends outside again; so the reader of events never finds another token where an event should
   begin (`Event.fault_in_group`). -/
namespace BraceTemplate

/-- How many braces are open behind a token. -/
def TokenKind.openAfter (opened : Nat) : TokenKind → Nat
  | .leftBrace => opened + 1
  | .rightBrace => opened - 1
  | _ => opened

namespace Token

/-- The tokens in pieces, each of which ends where no brace is open any more. -/
def piecesFrom (opened : Nat) : List Token → List (List Token)
  | [] => []
  | t :: rest =>
    if t.kind.openAfter opened = 0 then [t] :: piecesFrom 0 rest
    else
      match piecesFrom (t.kind.openAfter opened) rest with
      | [] => [[t]]
      | piece :: more => (t :: piece) :: more

def pieces (toks : List Token) : List (List Token) := piecesFrom 0 toks

/-- A brace is open from the first of the tokens to the last, and in the end so many are. -/
def Within (opened : Nat) : List Token → Nat → Prop
  | [], final => opened = final
  | t :: rest, final =>
    t.kind.openAfter opened ≠ 0 ∧ Within (t.kind.openAfter opened) rest final

/-- Where no brace is open there stands a text, a comment or a brace that opens. -/
def Nested (opened : Nat) : List Token → Prop
  | [] => True
  | t :: rest =>
    (opened = 0 → t.kind ∈ [.text, .comment, .leftBrace]) ∧ Nested (t.kind.openAfter opened) rest

variable {n m k : Nat} {t : Token} {ts us rest : List Token}

/-- Cutting into pieces loses nothing. -/
theorem flatten_piecesFrom (n : Nat) (toks : List Token) : (piecesFrom n toks).flatten = toks := by
  induction toks generalizing n with
  | nil => rfl
  | cons t toks ih =>
    rw [piecesFrom]
    split
    · rw [List.flatten_cons, ih, List.singleton_append]
    · have hrest := ih (t.kind.openAfter n)
      split
      · rename_i hnil
        rw [hnil] at hrest
        rw [← hrest]
        rfl
      · rename_i piece more hpieces
        rw [hpieces, List.flatten_cons] at hrest
        rw [List.flatten_cons, List.cons_append, hrest]

/-- A piece is a brace group, or a text or a comment alone. -/
def IsPiece : List Token → Prop
  | [] => False
  | t :: rest => t.kind = .leftBrace ∨ (t.kind ∈ [.text, .comment] ∧ rest = [])

/-- Of tokens that nest every piece is one that starts in the open; the first one does not when a
    brace is open before it. -/
theorem isPiece_of_nested {toks : List Token} (h : Nested n toks) :
    (n = 0 → ∀ piece ∈ piecesFrom n toks, IsPiece piece) ∧
      ∀ piece ∈ (piecesFrom n toks).tail, IsPiece piece := by
  induction toks generalizing n with
  | nil => simp [piecesFrom]
  | cons t toks ih =>
    obtain ⟨hkind, hrest⟩ := h
    rw [piecesFrom]
    split
    · rename_i hclosed
      have hmore := (ih hrest).1 hclosed
      rw [hclosed] at hmore
      refine ⟨fun hn => ?_, hmore⟩
      have ht : IsPiece [t] := by
        have hcases := hkind hn
        simp only [List.mem_cons, List.not_mem_nil, or_false] at hcases
        rcases hcases with h | h | h <;> simp [IsPiece, h]
      exact List.forall_mem_cons.mpr ⟨ht, hmore⟩
    · rename_i hopen
      -- a token that leaves a brace open where none was is the brace
      have hbrace : n = 0 → t.kind = .leftBrace := by
        rintro rfl
        have hcases := hkind rfl
        simp only [List.mem_cons, List.not_mem_nil, or_false] at hcases
        rcases hcases with h | h | h
        · exact absurd (by rw [h]; rfl) hopen
        · exact absurd (by rw [h]; rfl) hopen
        · exact h
      have hmore := (ih hrest).2
      split
      · refine ⟨fun hn => ?_, by simp⟩
        exact List.forall_mem_singleton.mpr (.inl (hbrace hn))
      · rename_i piece more hpieces
        rw [hpieces] at hmore
        refine ⟨fun hn => ?_, hmore⟩
        exact List.forall_mem_cons.mpr ⟨.inl (hbrace hn), hmore⟩

/-! Staying in a group. -/

namespace Within

theorem append (h : Within n ts m) (h' : Within m us k) : Within n (ts ++ us) k := by
  induction ts generalizing n with
  | nil =>
    obtain rfl : n = m := h
    exact h'
  | cons t ts ih => exact ⟨h.1, ih h.2⟩

/-- Tokens that are no braces leave the open braces alone. -/
theorem of_unbraced (hn : n ≠ 0) (hts : ∀ t ∈ ts, t.kind ∉ [.leftBrace, .rightBrace]) :
    Within n ts n := by
  induction ts with
  | nil => rfl
  | cons t ts ih =>
    have hkind := hts t List.mem_cons_self
    have hopen : t.kind.openAfter n = n := by
      unfold TokenKind.openAfter
      split <;> simp_all
    refine ⟨by rwa [hopen], ?_⟩
    rw [hopen]
    exact ih fun u hu => hts u (List.mem_cons_of_mem t hu)

/-- A group goes on while a brace is open, and ends with the one that leaves none open. -/
theorem piecesFrom (h : Within n ts m) {close : Token} (hclose : close.kind.openAfter m = 0) :
    piecesFrom n (ts ++ (close :: rest)) = (ts ++ [close]) :: piecesFrom 0 rest := by
  induction ts generalizing n with
  | nil =>
    obtain rfl : n = m := h
    rw [List.nil_append, Token.piecesFrom, if_pos hclose, List.nil_append]
  | cons t ts ih =>
    rw [List.cons_append, Token.piecesFrom, if_neg h.1, ih h.2]
    rfl

theorem nested (h : Within n ts m) (hnested : Nested n (ts ++ rest)) : Nested m rest := by
  induction ts generalizing n with
  | nil =>
    obtain rfl : n = m := h
    exact hnested
  | cons t ts ih => exact ih h.2 hnested.2

end Within
end Token

open Token (Within Nested pieces piecesFrom)

/-! Events are pieces. -/

theorem Interpolation.Written.within {s : Spelling} {i : Interpolation} {ts : List Token} {n : Nat}
    (h : i.Written s ts) : ∃ inner close, ts = inner ++ [close] ∧ close.kind = .rightBrace ∧
      Within n inner (n + 1) := by
  cases h with
  | @intro brace ts hbrace hts =>
    obtain ⟨inner, ends, rfl, hinner, hends⟩ := List.map_eq_append_iff.mp hts
    obtain ⟨close, rfl, hclose⟩ : ∃ close, ends = [close] ∧ close.symbol = (.rightBrace, .none) := by
      obtain ⟨close, more, rfl, hclose, hmore⟩ := List.map_eq_cons_iff.mp hends
      exact ⟨close, by rw [List.map_eq_nil_iff.mp hmore], hclose⟩
    have hopen : brace.kind.openAfter n = n + 1 := by
      rw [Token.kind_of_symbol hbrace]
      rfl
    refine ⟨brace :: inner, close, rfl, Token.kind_of_symbol hclose, ?_, ?_⟩
    · rw [hopen]
      exact Nat.succ_ne_zero n
    · rw [hopen]
      refine .of_unbraced (Nat.succ_ne_zero n) fun t ht => ?_
      exact s.symbols_unbraced t.symbol (hinner ▸ List.mem_map_of_mem ht)

/-- The value of an attribute stays in the group, though it may be a group of its own. -/
theorem AttrValue.Written.within {v : AttrValue} {ts : List Token} {n : Nat} (hn : n ≠ 0)
    (h : v.Written ts) : Within n ts n := by
  cases h with
  | interpolation h =>
    obtain ⟨inner, close, rfl, hclose, hinner⟩ := h.within (n := n)
    have hends : Within (n + 1) [close] n := by
      rw [Within, hclose]
      exact ⟨hn, rfl⟩
    exact hinner.append hends
  | string h | word h | int h | float h | bool h | null h =>
    refine .of_unbraced hn fun t ht => ?_
    rw [List.mem_singleton.mp ht, Token.kind_of_symbol h]
    simp

theorem Tag.WritesAttrs.within {ts : List Token} {as : List (String × AttrValue)} {n : Nat}
    (hn : n ≠ 0) (h : WritesAttrs ts as) : Within n ts n := by
  induction h with
  | nil => rfl
  | @flag t name ts as hname has ih =>
    have hword : Within n [t] n := .of_unbraced hn (by simp [Token.kind_of_symbol hname])
    exact hword.append ih
  | @given t eq name value ts v as hname heq hvalue has ih =>
    have hword : Within n [t, eq] n :=
      .of_unbraced hn (by simp [Token.kind_of_symbol hname, Token.kind_of_symbol heq])
    exact hword.append ((hvalue.within hn).append ih)

/-- The end of a tag is perhaps a slash, and the brace. -/
theorem Tag.ends_within {ends : List Token} {self : Bool} {n : Nat} (hn : n ≠ 0)
    (h : ends.map Token.symbol = endSymbols self) :
    ∃ inner close, ends = inner ++ [close] ∧ close.kind = .rightBrace ∧ Within n inner n := by
  cases self with
  | false =>
    obtain ⟨close, more, rfl, hclose, hmore⟩ := List.map_eq_cons_iff.mp h
    obtain rfl := List.map_eq_nil_iff.mp hmore
    exact ⟨[], close, rfl, Token.kind_of_symbol hclose, rfl⟩
  | true =>
    obtain ⟨slash, more, rfl, hslash, hmore⟩ := List.map_eq_cons_iff.mp h
    obtain ⟨close, more, rfl, hclose, hmore⟩ := List.map_eq_cons_iff.mp hmore
    obtain rfl := List.map_eq_nil_iff.mp hmore
    have hword : Within n [slash] n := .of_unbraced hn (by simp [Token.kind_of_symbol hslash])
    exact ⟨[slash], close, rfl, Token.kind_of_symbol hclose, hword⟩

theorem Tag.Written.within {t : Tag} {ts : List Token} (h : t.Written ts) :
    ∃ inner close, ts = inner ++ [close] ∧ close.kind = .rightBrace ∧ Within 0 inner 1 := by
  cases h with
  | @intro brace word name attrs ends as self hbrace hname hpath has hends =>
    obtain ⟨inner, close, rfl, hclose, hinner⟩ := ends_within Nat.one_ne_zero hends
    have hopen : Within 0 [brace] 1 := by
      rw [Within, Token.kind_of_symbol hbrace]
      exact ⟨Nat.one_ne_zero, rfl⟩
    have hword : Within 1 [word] 1 :=
      .of_unbraced Nat.one_ne_zero (by simp [Token.kind_of_symbol hname])
    have hall := hopen.append (hword.append ((has.within Nat.one_ne_zero).append hinner))
    exact ⟨_, close, by simp, hclose, hall⟩

namespace Event

/-- The tokens of an event lie in a brace group but for the last, or there is just one token, and
    behind the last one no brace is open. -/
theorem Written.within {e : Event} {ts : List Token} (h : e.Written ts) :
    ∃ inner close m, ts = inner ++ [close] ∧ close.kind.openAfter m = 0 ∧ Within 0 inner m := by
  have hgroup : ∀ {close : Token}, close.kind = .rightBrace → close.kind.openAfter 1 = 0 := by
    intro close hclose
    rw [hclose]
    rfl
  cases h with
  | @text t v h | @comment t v h =>
    refine ⟨[], t, 0, rfl, ?_, rfl⟩
    rw [Token.kind_of_symbol h]
    rfl
  | interpolation halone h =>
    obtain ⟨inner, close, rfl, hclose, hinner⟩ := h.within (n := 0)
    exact ⟨inner, close, 1, rfl, hgroup hclose, hinner⟩
  | selfClosing hself h | opening hself h =>
    obtain ⟨inner, close, rfl, hclose, hinner⟩ := h.within
    exact ⟨inner, close, 1, rfl, hgroup hclose, hinner⟩
  | @closing brace slash word close name hbrace hslash hname hclose =>
    have hopen : Within 0 [brace] 1 := by
      rw [Within, Token.kind_of_symbol hbrace]
      exact ⟨Nat.one_ne_zero, rfl⟩
    have hinner : Within 1 [slash, word] 1 :=
      .of_unbraced Nat.one_ne_zero
        (by simp [Token.kind_of_symbol hslash, Token.kind_of_symbol hname])
    exact ⟨[brace, slash, word], close, 1, rfl, hgroup (Token.kind_of_symbol hclose),
      hopen.append hinner⟩

/-- The tokens of an event are one piece. -/
theorem Written.piece {e : Event} {ts rest : List Token} (h : e.Written ts) :
    pieces (ts ++ rest) = ts :: pieces rest := by
  obtain ⟨inner, close, m, rfl, hclose, hinner⟩ := h.within
  rw [List.append_assoc, List.singleton_append]
  exact hinner.piecesFrom hclose

/-- Tokens are written events when each piece of them is one. -/
theorem writes_iff_pieces {ts : List Token} {es : List Event} :
    Writes ts es ↔ List.Forall₂ (fun piece e => Event.Written piece e) (pieces ts) es := by
  constructor
  · intro h
    induction h with
    | nil => exact .nil
    | cons h hrest ih =>
      rw [h.piece]
      exact .cons h ih
  · have hjoin : ∀ gs es, List.Forall₂ (fun piece e => Event.Written piece e) gs es →
        Writes gs.flatten es := by
      intro gs es h
      induction h with
      | nil => exact .nil
      | cons h hrest ih => exact .cons h ih
    intro h
    have hwrites := hjoin _ _ h
    rwa [pieces, Token.flatten_piecesFrom] at hwrites

/-! Nothing else stands outside groups. -/

theorem Written.nested {e : Event} {ts rest : List Token} (h : e.Written ts)
    (hnested : Nested 0 (ts ++ rest)) : Nested 0 rest := by
  obtain ⟨inner, close, m, rfl, hclose, hinner⟩ := h.within
  rw [List.append_assoc] at hnested
  have hbehind := (hinner.nested hnested).2
  rwa [hclose] at hbehind

end Event

/-- As many braces are open behind a token as its kind says. -/
theorem Lexer.length_bracesAfter (kind : TokenKind) (b : List Bool) :
    (bracesAfter kind b).length = kind.openAfter b.length := by
  cases kind <;> cases b <;> rfl

/-- The lexer makes tokens that nest. -/
theorem Lexer.Cuts.nested {p : Position} {b : List Bool} {text : List Char} {toks : List Token}
    (h : Cuts p b text toks) : Nested b.length toks := by
  induction h with
  | nil => trivial
  | @blank p b b' w rest toks h hrest ih =>
    cases h
    exact ih
  | @token p b b' w rest x toks h hrest ih =>
    refine ⟨fun hb => ?_, ?_⟩
    · by_contra hkind
      exact h.sides.2 hkind (List.length_eq_zero_iff.mp hb)
    · show Nested (x.1.openAfter b.length) toks
      rwa [← length_bracesAfter, ← h.braces]

/-! What groups lack. -/

/-- What a brace group can be found to lack. -/
def groupParts : List String :=
  ["variable path", "'|' or '\x7d'", "filter name", "filter argument", "argument value",
    "attribute name, '/' or '\x7d'", "attribute value", "'\x7d' after '/'", "tag name or expression",
    "closing tag name", "'\x7d'"]

/-- A brace group lacks one of its parts. -/
inductive ParseError.LacksPart : ParseError → Prop where
  | intro {part : String} (found : Token) (hpart : part ∈ groupParts) :
    LacksPart (.unexpected part found)

namespace Event
variable {eof : Token} {ts : List Token} {f : ParseError}

/-- Calls and arguments that cannot be read lack a part. -/
theorem chain_fault (eof : Token) :
    (∀ ts f, calls eof ts = .error f → f.LacksPart) ∧
    (∀ filter done ts f, arguments eof filter done ts = .error f → f.LacksPart) ∧
    (∀ filter done ts f, moreArguments eof filter done ts = .error f → f.LacksPart) := by
  apply calls.mutual_induct
  -- the tokens end, or the first one fits nowhere
  case case1 | case3 | case4 | case7 | case8 | case9 | case10 | case11 | case12 | case14 | case16 =>
    intros
    simp_all [calls.eq_def, arguments, moreArguments]
    subst_vars
    exact .intro _ (by decide)
  case case2 => simp_all [calls.eq_def]
  case case5 =>
    intro t _ hpipe name hname sep more hsep ih f h
    exact ih f (by simpa [calls, hpipe, hname, hsep] using h)
  case case6 =>
    intro t _ hpipe name hname sep more hsep ih f h
    exact ih f (by simpa [calls.eq_def eof (t :: _), hpipe, hname, hsep, Outcome.map_eq_error] using h)
  case case13 =>
    intro filter done t value ht eq hnamed v more named hv ih f h
    exact ih f (by simpa [arguments, ht, hnamed, hv] using h)
  case case15 =>
    intro filter done t value ht next more hplain ih f h
    exact ih f (by simpa [arguments, ht, hplain] using h)
  case case17 =>
    intro filter done t rest hcomma ih f h
    exact ih f (by simpa [moreArguments, hcomma] using h)
  case case18 =>
    intro filter done t rest hcomma ih f h
    exact ih f (by simpa [moreArguments, hcomma, Outcome.map_eq_error] using h)

theorem interpolationAt_fault {pos : Position} (h : interpolationAt eof pos ts = .error f) :
    f.LacksPart := by
  have hread : spelling eof ts = .error f := Outcome.map_eq_error.mp h
  unfold spelling at hread
  split at hread
  · cases hread
    exact .intro _ (by decide)
  · split at hread
    · exact (chain_fault eof).1 _ f (Outcome.map_eq_error.mp hread)
    · cases hread
      exact .intro _ (by decide)

theorem attrValue_fault (h : attrValue eof ts = .error f) : f.LacksPart := by
  unfold attrValue at h
  split at h
  · cases h
    exact .intro _ (by decide)
  · split at h
    · exact interpolationAt_fault (Outcome.map_eq_error.mp h)
    · split at h
      · cases h
      · cases h
        exact .intro _ (by decide)

theorem attrBehind_fault (h : attrBehind eof ts = .error f) : f.LacksPart := by
  unfold attrBehind at h
  split at h
  · cases h
  · split at h
    · exact attrValue_fault h
    · cases h

theorem attributes_fault {done : List (String × AttrValue)}
    (h : attributes eof done ts = .error f) : f.LacksPart := by
  fun_induction attributes eof done ts with
  | case1 | case3 | case5 | case8 =>
    cases h
    exact .intro _ (by decide)
  | case2 | case4 => cases h
  | case6 done t rest hkind e hbehind =>
    cases h
    exact attrBehind_fault hbehind
  | case7 done t rest hkind v r hbehind ih => exact ih h

theorem group_fault {brace : Position} (h : group eof brace ts = .error f) : f.LacksPart := by
  unfold group at h
  split at h
  · cases h
    exact .intro _ (by decide)
  · split at h
    · -- a closing tag
      split at h
      · cases h
        exact .intro _ (by decide)
      · split at h
        · split at h
          · cases h
            exact .intro _ (by decide)
          · split at h
            · cases h
            · cases h
              exact .intro _ (by decide)
        · cases h
          exact .intro _ (by decide)
    · split at h
      · split at h
        · exact interpolationAt_fault (Outcome.map_eq_error.mp h)
        · exact attributes_fault (Outcome.map_eq_error.mp h)
      · split at h
        · exact interpolationAt_fault (Outcome.map_eq_error.mp h)
        · cases h
          exact .intro _ (by decide)

/-- Of tokens that nest no other than a text, a comment or a brace is met where an event should
    begin: an event ends outside all groups again. -/
theorem fault_in_group (hsound : ∀ t ∈ ts, t.symbol.Sound) (hnested : Nested 0 ts)
    (h : (all eof ts).2 = some f) : f.LacksPart := by
  fun_induction all eof ts with
  | case1 => cases h
  | case2 t rest fault hnext =>
    cases h
    have hkind := hnested.1 rfl
    unfold next at hnext
    split at hnext
    · cases hnext
    · cases hnext
    · exact group_fault hnext
    · rename_i htext hcomment hbrace
      simp only [List.mem_cons, List.not_mem_nil, or_false] at hkind
      rcases hkind with hkind | hkind | hkind
      · exact absurd hkind htext
      · exact absurd hkind hcomment
      · exact absurd hkind hbrace
  | case3 t rest e r hnext events failure hall ih =>
    obtain ⟨used, rfl, he⟩ := written_of_next (hsound t List.mem_cons_self)
      (fun u hu => hsound u (List.mem_cons_of_mem t hu)) hnext
    have hrest : Nested 0 r := he.nested hnested
    rw [hall] at ih
    exact ih (fun u hu => hsound u (by simp [hu])) hrest h

end Event
end BraceTemplate
