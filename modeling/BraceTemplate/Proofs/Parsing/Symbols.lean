import BraceTemplate.Document.Event

/- The tokens of a spelling. A symbol is a token without its place. Every spelling is written
   in one way as symbols: its head, and its calls with their marks. The reader of events takes
   the symbols of a spelling, with the brace that closes it, for the spelling
   (`Event.spelling_of_leads`); and of tokens that carry what their kinds say it takes nothing
   else (`Event.leads_of_spelling`). -/
namespace BraceTemplate

/-- A token without its place. -/
abbrev Symbol := TokenKind × Payload

def Token.symbol (t : Token) : Symbol := (t.kind, t.payload)

/-- The payload is one that the kind carries. -/
def Symbol.Sound : Symbol → Prop
  | (.ident, p) | (.string, p) | (.text, p) | (.comment, p) => ∃ s, p = .str s
  | (.number, p) => (∃ n, p = .int n) ∨ ∃ x, p = .float x
  | (.bool, p) => ∃ b, p = .bool b
  | (_, p) => p = .none

/-- Marks carry nothing. -/
theorem Token.symbol_of_mark {t : Token} {kind : TokenKind} (ht : t.symbol.Sound) (h : t.kind = kind)
    (hkind : kind ∈ [.leftBrace, .rightBrace, .slash, .equal, .colon, .comma, .pipe]) :
    t.symbol = (kind, .none) := by
  obtain ⟨k, payload, pos⟩ := t
  obtain rfl : k = kind := h
  have hpayload : payload = .none := by
    simp only [List.mem_cons, List.not_mem_nil, or_false] at hkind
    rcases hkind with rfl | rfl | rfl | rfl | rfl | rfl | rfl <;> exact ht
  rw [symbol, hpayload]

theorem Token.symbol_of_ident {t : Token} (ht : t.symbol.Sound) (h : t.kind = .ident) :
    t.symbol = (.ident, .str t.text) := by
  obtain ⟨k, payload, pos⟩ := t
  obtain rfl : k = .ident := h
  obtain ⟨s, rfl⟩ : ∃ s, payload = .str s := ht
  rfl

namespace Spelling

/-- The kind of the token of a literal. -/
def literalKind : Payload → TokenKind
  | .str _ => .string
  | .int _ => .number
  | .float _ => .number
  | .bool _ => .bool
  | .none => .null

def Operand.symbol : Operand → Symbol
  | .word w => (.ident, .str w)
  | .literal v => (literalKind v, v)

def Argument.symbols (a : Argument) : List Symbol :=
  match a.name with
  | some name => [(.ident, .str name), (.equal, .none), a.value.symbol]
  | none => [a.value.symbol]

/-- Arguments behind the first one. -/
def furtherSymbols (as : List Argument) : List Symbol :=
  as.flatMap fun a => (.comma, .none) :: a.symbols

def argumentSymbols : List Argument → List Symbol
  | [] => []
  | a :: rest => (.colon, .none) :: (a.symbols ++ furtherSymbols rest)

def Call.symbols (c : Call) : List Symbol :=
  (.pipe, .none) :: (.ident, .str c.filter) :: argumentSymbols c.arguments

end Spelling

def Spelling.symbols (s : Spelling) : List Symbol :=
  s.head.symbol :: s.calls.flatMap Call.symbols

namespace Spelling

theorem furtherSymbols_cons (a : Argument) (as : List Argument) :
    furtherSymbols (a :: as) = (.comma, .none) :: (a.symbols ++ furtherSymbols as) := by
  rw [furtherSymbols, List.flatMap_cons, List.cons_append]
  rfl

theorem Operand.ofToken?_of_symbol {t : Token} {o : Operand} (h : t.symbol = o.symbol) :
    ofToken? t = some o := by
  obtain ⟨kind, payload, pos⟩ := t
  cases o with
  | word w =>
    obtain ⟨rfl, rfl⟩ := Prod.mk.inj h
    rfl
  | literal v =>
    obtain ⟨hkind, hpayload⟩ := Prod.mk.inj h
    obtain rfl : payload = v := hpayload
    obtain rfl : kind = literalKind payload := hkind
    cases payload <;> rfl

theorem Operand.symbol_of_ofToken? {t : Token} {o : Operand} (ht : t.symbol.Sound)
    (h : ofToken? t = some o) : t.symbol = o.symbol := by
  obtain ⟨kind, payload, pos⟩ := t
  unfold ofToken? at h
  split at h
  · rename_i hkind
    obtain rfl : kind = .ident := hkind
    obtain ⟨s, rfl⟩ := ht
    cases h
    rfl
  · split at h
    · rename_i hliteral
      cases h
      cases kind <;> simp [TokenKind.isLiteral] at hliteral
      · obtain ⟨s, rfl⟩ := ht
        rfl
      · obtain ⟨n, rfl⟩ | ⟨x, rfl⟩ := ht <;> rfl
      · obtain ⟨b, rfl⟩ := ht
        rfl
      · obtain rfl : payload = .none := ht
        rfl
    · cases h

/-! Symbols of operands and arguments leave the braces and the pipes of a group alone. -/

theorem Operand.calm (o : Operand) : o.symbol.1 ∉ [.leftBrace, .rightBrace, .pipe] := by
  cases o with
  | word w => simp [Operand.symbol]
  | literal v => cases v <;> simp [Operand.symbol, literalKind]

theorem Argument.calm (a : Argument) : ∀ x ∈ a.symbols, x.1 ∉ [.leftBrace, .rightBrace, .pipe] := by
  have hvalue := a.value.calm
  unfold Argument.symbols
  split <;> simpa using hvalue

/-- The symbols of arguments: those of each argument, and marks. -/
theorem mem_argumentSymbols {as : List Argument} {x : Symbol} :
    x ∈ argumentSymbols as → (∃ a ∈ as, x ∈ a.symbols) ∨ x.1 ∈ [.colon, .comma] := by
  cases as with
  | nil => exact fun h => by cases h
  | cons a as =>
    intro h
    simp only [argumentSymbols, furtherSymbols, List.mem_cons, List.mem_append,
      List.mem_flatMap] at h
    rcases h with rfl | h | ⟨b, hb, rfl | h⟩
    · exact .inr (by simp)
    · exact .inl ⟨a, List.mem_cons_self, h⟩
    · exact .inr (by simp)
    · exact .inl ⟨b, List.mem_cons_of_mem a hb, h⟩

theorem symbols_subset_argumentSymbols {as : List Argument} {a : Argument} (ha : a ∈ as) :
    a.symbols ⊆ argumentSymbols as := by
  intro x hx
  cases as with
  | nil => cases ha
  | cons b as =>
    refine List.mem_cons_of_mem _ (List.mem_append.mpr ?_)
    rcases List.mem_cons.mp ha with rfl | ha
    · exact .inl hx
    · exact .inr (List.mem_flatMap.mpr ⟨a, ha, List.mem_cons_of_mem _ hx⟩)

theorem argumentSymbols_calm (as : List Argument) :
    ∀ x ∈ argumentSymbols as, x.1 ∉ [.leftBrace, .rightBrace, .pipe] := by
  intro x hx
  rcases mem_argumentSymbols hx with ⟨a, -, hx⟩ | hmark
  · exact a.calm x hx
  · simp only [List.mem_cons, List.not_mem_nil, or_false] at hmark
    rcases hmark with hmark | hmark <;> simp [hmark]

/-- A spelling holds no braces. -/
theorem symbols_unbraced (s : Spelling) : ∀ x ∈ s.symbols, x.1 ∉ [.leftBrace, .rightBrace] := by
  intro x hx
  have hcalm : ∀ y : Symbol, y.1 ∉ [.leftBrace, .rightBrace, .pipe] → y.1 ∉ [.leftBrace, .rightBrace] := by
    intro y hy hmem
    exact hy (List.mem_append_left [TokenKind.pipe] hmem)
  rcases List.mem_cons.mp hx with rfl | hx
  · exact hcalm _ s.head.calm
  · obtain ⟨c, -, hx⟩ := List.mem_flatMap.mp hx
    rcases List.mem_cons.mp hx with rfl | hx
    · decide
    · rcases List.mem_cons.mp hx with rfl | hx
      · simp
      · exact hcalm x (argumentSymbols_calm c.arguments x hx)

end Spelling

/-- The tokens begin with the symbols, and `r` stands behind them. -/
def Leads (xs : List Symbol) (ts r : List Token) : Prop :=
  ∃ used, ts = used ++ r ∧ used.map Token.symbol = xs

namespace Leads
variable {x : Symbol} {xs ys : List Symbol} {t : Token} {ts r r' : List Token}

theorem nil_iff : Leads [] ts r ↔ ts = r := by
  constructor
  · rintro ⟨used, rfl, hused⟩
    rw [List.map_eq_nil_iff.mp hused, List.nil_append]
  · rintro rfl
    exact ⟨[], rfl, rfl⟩

theorem cons_iff : Leads (x :: xs) ts r ↔ ∃ t ts', ts = t :: ts' ∧ t.symbol = x ∧ Leads xs ts' r := by
  constructor
  · rintro ⟨used, rfl, hused⟩
    obtain ⟨t, used, rfl, ht, hused⟩ := List.map_eq_cons_iff.mp hused
    exact ⟨t, used ++ r, rfl, ht, used, rfl, hused⟩
  · rintro ⟨t, _, rfl, ht, used, rfl, hused⟩
    exact ⟨t :: used, rfl, by rw [List.map_cons, ht, hused]⟩

theorem append_iff : Leads (xs ++ ys) ts r ↔ ∃ m, Leads xs ts m ∧ Leads ys m r := by
  constructor
  · rintro ⟨used, rfl, hused⟩
    obtain ⟨used₁, used₂, rfl, h₁, h₂⟩ := List.map_eq_append_iff.mp hused
    exact ⟨used₂ ++ r, ⟨used₁, List.append_assoc _ _ _, h₁⟩, used₂, rfl, h₂⟩
  · rintro ⟨_, ⟨used₁, rfl, h₁⟩, used₂, rfl, h₂⟩
    exact ⟨used₁ ++ used₂, (List.append_assoc _ _ _).symm, by rw [List.map_append, h₁, h₂]⟩

theorem cons (ht : t.symbol = x) (h : Leads xs ts r) : Leads (x :: xs) (t :: ts) r :=
  cons_iff.mpr ⟨t, ts, rfl, ht, h⟩

end Leads

namespace Event

open Token (symbol_of_mark symbol_of_ident)
open Spelling (Operand Argument Call furtherSymbols argumentSymbols
  furtherSymbols_cons)

variable {eof : Token} {ts r : List Token}

/-- The symbols of calls and of the brace behind them. -/
def chainSymbols (cs : List Call) : List Symbol := cs.flatMap Call.symbols ++ [(.rightBrace, .none)]

theorem chainSymbols_cons (c : Call) (cs : List Call) :
    chainSymbols (c :: cs) = c.symbols ++ chainSymbols cs := by
  rw [chainSymbols, List.flatMap_cons, List.append_assoc]
  rfl

/-! Symbols are read. -/

/-- Calls begin with a pipe, or there are none and the brace stands there. -/
theorem chain_starts {cs : List Call} (h : Leads (chainSymbols cs) ts r) :
    ∃ t ts', ts = t :: ts' ∧ (t.kind = .pipe ∨ t.kind = .rightBrace) := by
  cases cs with
  | nil =>
    obtain ⟨t, ts', rfl, ht, -⟩ := Leads.cons_iff.mp h
    exact ⟨t, ts', rfl, .inr (Prod.mk.inj ht).1⟩
  | cons c cs =>
    rw [chainSymbols_cons] at h
    obtain ⟨t, ts', rfl, ht, -⟩ := Leads.cons_iff.mp h
    exact ⟨t, ts', rfl, .inl (Prod.mk.inj ht).1⟩

/-- Behind an argument stands no equal sign. -/
theorem further_starts {as : List Argument} {cs : List Call}
    (h : Leads (furtherSymbols as ++ chainSymbols cs) ts r) :
    ∃ t ts', ts = t :: ts' ∧ t.kind ≠ .equal := by
  cases as with
  | nil =>
    obtain ⟨t, ts', rfl, ht⟩ := chain_starts h
    exact ⟨t, ts', rfl, by rcases ht with ht | ht <;> simp [ht]⟩
  | cons a as =>
    obtain ⟨t, ts', rfl, ht, -⟩ := Leads.cons_iff.mp h
    exact ⟨t, ts', rfl, by simp [(Prod.mk.inj ht).1]⟩

/-- One argument in front of what is no equal sign. -/
theorem arguments_of_leads {filter : String} {done : List Argument} {a : Argument} {t : Token}
    (ht : t.kind ≠ .equal) (h : Leads a.symbols ts (t :: r)) :
    arguments eof filter done ts = moreArguments eof filter (done ++ [a]) (t :: r) := by
  obtain ⟨name, value⟩ := a
  cases name with
  | none =>
    obtain ⟨v, _, rfl, hv, h⟩ := Leads.cons_iff.mp h
    obtain rfl := Leads.nil_iff.mp h
    have hvalue := Operand.ofToken?_of_symbol hv
    simp [arguments, hvalue, ht]
  | some n =>
    obtain ⟨word, _, rfl, hword, h⟩ := Leads.cons_iff.mp h
    obtain ⟨eq, _, rfl, heq, h⟩ := Leads.cons_iff.mp h
    obtain ⟨v, _, rfl, hv, h⟩ := Leads.cons_iff.mp h
    obtain rfl := Leads.nil_iff.mp h
    -- the name is read as a word, and the sign behind it tells that it is a name
    have hname := Operand.ofToken?_of_symbol (o := .word n) hword
    have hvalue := Operand.ofToken?_of_symbol hv
    obtain ⟨hkind, htext⟩ := Prod.mk.inj hword
    have hn : word.text = n := by simp [Token.text, htext]
    have hequal : eq.kind = .equal := (Prod.mk.inj heq).1
    simp [arguments, hname, hvalue, hkind, hequal, hn]

theorem moreArguments_of_leads {cs : List Call}
    (hcalls : ∀ ts, Leads (chainSymbols cs) ts r → calls eof ts = .ok (cs, r))
    {filter : String} {done as : List Argument}
    (h : Leads (furtherSymbols as ++ chainSymbols cs) ts r) :
    moreArguments eof filter done ts = .ok (⟨filter, done ++ as⟩ :: cs, r) := by
  induction as generalizing done ts with
  | nil =>
    have hread := hcalls ts h
    obtain ⟨t, ts', rfl, ht⟩ := chain_starts h
    -- no comma follows, so the call ends here and the calls behind it are read
    have hcomma : t.kind ≠ .comma := by rcases ht with ht | ht <;> simp [ht]
    rw [moreArguments, if_neg hcomma, hread, List.append_nil]
    rfl
  | cons a as ih =>
    rw [furtherSymbols_cons, List.cons_append, List.append_assoc] at h
    obtain ⟨comma, _, rfl, hcomma, h⟩ := Leads.cons_iff.mp h
    obtain ⟨behind, ha, h⟩ := Leads.append_iff.mp h
    obtain ⟨t, ts', rfl, ht⟩ := further_starts h
    rw [moreArguments, if_pos (Prod.mk.inj hcomma).1, arguments_of_leads ht ha, ih h,
      List.append_assoc, List.singleton_append]

/-- The symbols of calls are read as the calls. -/
theorem calls_of_leads {cs : List Call} (h : Leads (chainSymbols cs) ts r) :
    calls eof ts = .ok (cs, r) := by
  induction cs generalizing ts with
  | nil =>
    obtain ⟨t, _, rfl, ht, h⟩ := Leads.cons_iff.mp h
    obtain rfl := Leads.nil_iff.mp h
    simp [calls.eq_def, (Prod.mk.inj ht).1]
  | cons c cs ih =>
    obtain ⟨filter, as⟩ := c
    simp only [chainSymbols_cons, Call.symbols, List.cons_append] at h
    obtain ⟨pipe, _, rfl, hpipe, h⟩ := Leads.cons_iff.mp h
    obtain ⟨name, _, rfl, hname, h⟩ := Leads.cons_iff.mp h
    obtain ⟨hident, htext⟩ := Prod.mk.inj hname
    have hfilter : name.text = filter := by simp [Token.text, htext]
    have hpipe : pipe.kind = .pipe := (Prod.mk.inj hpipe).1
    cases as with
    | nil =>
      have hread := ih h
      obtain ⟨t, ts', rfl, ht⟩ := chain_starts h
      -- no colon follows the name, so the call has no arguments
      have hcolon : t.kind ≠ .colon := by rcases ht with ht | ht <;> simp [ht]
      simp [calls, hpipe, hident, hcolon, hread, hfilter, Except.map]
    | cons a as =>
      rw [argumentSymbols, List.cons_append, List.append_assoc] at h
      obtain ⟨colon, _, rfl, hcolon, h⟩ := Leads.cons_iff.mp h
      obtain ⟨behind, ha, h⟩ := Leads.append_iff.mp h
      obtain ⟨t, ts', rfl, ht⟩ := further_starts h
      have hcolon : colon.kind = .colon := (Prod.mk.inj hcolon).1
      have hread : moreArguments eof filter [a] (t :: ts') = .ok (⟨filter, [a] ++ as⟩ :: cs, r) :=
        moreArguments_of_leads (fun _ => ih) h
      simp [calls, hpipe, hident, hcolon, hfilter, arguments_of_leads ht ha, hread]

/-- The symbols of a spelling, with the brace behind them, are read as the spelling. -/
theorem spelling_of_leads {s : Spelling} (h : Leads (s.symbols ++ [(.rightBrace, .none)]) ts r) :
    spelling eof ts = .ok (s, r) := by
  obtain ⟨head, _, rfl, hhead, h⟩ := Leads.cons_iff.mp h
  have hcalls : calls eof _ = _ := calls_of_leads h
  simp [spelling, Operand.ofToken?_of_symbol hhead, hcalls, Except.map]

/-! Nothing else is read. -/

/-- What sound tokens are read as is what their symbols say, for calls and for the arguments of
    a call that is begun. -/
theorem chain_leads (eof : Token) :
    (∀ ts, (∀ t ∈ ts, t.symbol.Sound) → ∀ cs r, calls eof ts = .ok (cs, r) →
      Leads (chainSymbols cs) ts r) ∧
    (∀ f done ts, (∀ t ∈ ts, t.symbol.Sound) → ∀ cs r, arguments eof f done ts = .ok (cs, r) →
      ∃ a as cs', cs = ⟨f, done ++ a :: as⟩ :: cs' ∧
        Leads (a.symbols ++ (furtherSymbols as ++ chainSymbols cs')) ts r) ∧
    (∀ f done ts, (∀ t ∈ ts, t.symbol.Sound) → ∀ cs r, moreArguments eof f done ts = .ok (cs, r) →
      ∃ as cs', cs = ⟨f, done ++ as⟩ :: cs' ∧ Leads (furtherSymbols as ++ chainSymbols cs') ts r) := by
  apply calls.mutual_induct
  -- the tokens end, or the first one fits nowhere
  case case1 | case3 | case4 | case7 | case8 | case9 | case10 | case11 | case12 | case14 | case16 =>
    intros
    simp_all [calls.eq_def, arguments, moreArguments]
  case case2 =>
    intro t rest ht hsound cs r h
    obtain ⟨rfl, rfl⟩ : [] = cs ∧ rest = r := by simpa [calls.eq_def, ht] using h
    exact (Leads.nil_iff.mpr rfl).cons (symbol_of_mark (hsound t (by simp)) ht (by decide))
  case case5 =>
    intro t _ hpipe name hname sep more hsep ih hsound cs r h
    have hread : arguments eof name.text [] more = .ok (cs, r) := by
      simpa [calls, hpipe, hname, hsep] using h
    obtain ⟨a, as, cs', rfl, hlead⟩ := ih (fun u hu => hsound u (by simp [hu])) _ _ hread
    rw [chainSymbols_cons, Call.symbols, List.nil_append, argumentSymbols]
    simp only [List.cons_append, List.append_assoc]
    exact ((hlead.cons (symbol_of_mark (hsound sep (by simp)) hsep (by decide))).cons
      (symbol_of_ident (hsound name (by simp)) hname)).cons
      (symbol_of_mark (hsound t (by simp)) hpipe (by decide))
  case case6 =>
    intro t _ hpipe name hname sep more hsep ih hsound cs r h
    obtain ⟨cs', hread, rfl⟩ : ∃ cs', calls eof (sep :: more) = .ok (cs', r) ∧
        ⟨name.text, []⟩ :: cs' = cs := by
      simpa [calls.eq_def eof (t :: _), hpipe, hname, hsep, Outcome.map_eq_ok] using h
    have hlead := ih (fun u hu => hsound u (List.mem_cons_of_mem t (List.mem_cons_of_mem name hu)))
      _ _ hread
    rw [chainSymbols_cons, Call.symbols, argumentSymbols]
    exact (hlead.cons (symbol_of_ident (hsound name (by simp)) hname)).cons
      (symbol_of_mark (hsound t (by simp)) hpipe (by decide))
  case case13 =>
    intro f done t value ht eq hnamed v more named hv ih hsound cs r h
    have hread : moreArguments eof f (done ++ [⟨some t.text, named⟩]) more = .ok (cs, r) := by
      simpa [arguments, ht, hnamed, hv] using h
    obtain ⟨as, cs', rfl, hlead⟩ := ih (fun u hu => hsound u (by simp [hu])) _ _ hread
    refine ⟨⟨some t.text, named⟩, as, cs', by simp, ?_⟩
    exact ((hlead.cons (Operand.symbol_of_ofToken? (hsound v (by simp)) hv)).cons
      (symbol_of_mark (hsound eq (by simp)) hnamed.2 (by decide))).cons
      (symbol_of_ident (hsound t (by simp)) hnamed.1)
  case case15 =>
    intro f done t value ht next more hplain ih hsound cs r h
    have hread : moreArguments eof f (done ++ [⟨none, value⟩]) (next :: more) = .ok (cs, r) := by
      simpa [arguments, ht, hplain] using h
    obtain ⟨as, cs', rfl, hlead⟩ := ih (fun u hu => hsound u (List.mem_cons_of_mem t hu)) _ _ hread
    refine ⟨⟨none, value⟩, as, cs', by simp, ?_⟩
    exact hlead.cons (Operand.symbol_of_ofToken? (hsound t (by simp)) ht)
  case case17 =>
    intro f done t rest hcomma ih hsound cs r h
    have hread : arguments eof f done rest = .ok (cs, r) := by
      simpa [moreArguments, hcomma] using h
    obtain ⟨a, as, cs', rfl, hlead⟩ := ih (fun u hu => hsound u (List.mem_cons_of_mem t hu)) _ _ hread
    refine ⟨a :: as, cs', rfl, ?_⟩
    rw [furtherSymbols_cons, List.cons_append, List.append_assoc]
    exact hlead.cons (symbol_of_mark (hsound t (by simp)) hcomma (by decide))
  case case18 =>
    intro f done t rest hcomma ih hsound cs r h
    obtain ⟨cs', hread, rfl⟩ : ∃ cs', calls eof (t :: rest) = .ok (cs', r) ∧
        ⟨f, done⟩ :: cs' = cs := by
      simpa [moreArguments, hcomma, Outcome.map_eq_ok] using h
    exact ⟨[], cs', by simp, ih hsound _ _ hread⟩

/-- What sound tokens are read as is the spelling that their symbols say. -/
theorem leads_of_spelling {s : Spelling} (hsound : ∀ t ∈ ts, t.symbol.Sound)
    (h : spelling eof ts = .ok (s, r)) : Leads (s.symbols ++ [(.rightBrace, .none)]) ts r := by
  unfold spelling at h
  split at h
  · cases h
  · rename_i head rest
    split at h
    · rename_i operand hhead
      obtain ⟨⟨cs, r'⟩, hcalls, heq⟩ := Outcome.map_eq_ok.mp h
      cases heq
      have hlead := (chain_leads eof).1 rest (fun t ht => hsound t (List.mem_cons_of_mem head ht))
        _ _ hcalls
      exact hlead.cons (Operand.symbol_of_ofToken? (hsound head List.mem_cons_self) hhead)
    · cases h

end Event
end BraceTemplate
