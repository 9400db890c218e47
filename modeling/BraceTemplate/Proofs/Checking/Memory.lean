import Mathlib.Data.Finset.Dedup
import Mathlib.Data.Finset.Card
import BraceTemplate.Checker.Operation
import BraceTemplate.Proofs.Checking.Findings
import BraceTemplate.Proofs.Table

/- What a checker remembers cannot be seen in its answers. `Remembers texts c` says that the
   checker knows exactly the expressions among the texts, each of them once and as its registry
   reads it afresh. Reading keeps this (`Remembers.recallText`), and so does every operation
   (`Remembers.perform`), because an operation touches what is known by reading texts or by
   forgetting them. An operation answers what its rules say (`perform_answer`), whatever is
   known; so a run answers as fresh checkers would, and the number of known expressions counts
   the texts that were read (`run_transparent`). -/
namespace BraceTemplate

/-- Whether a text reads as an expression. -/
def Expression.isReadable (text : String) : Bool := (Expression.read text).isOk

theorem Registry.know_ok {r : Registry} {text : String} {k : KnownExpression}
    (h : r.know text = .ok k) :
    Expression.read text = .ok k.expression ∧ k.escapes = k.expression.escapes r.isEscaping := by
  obtain ⟨e, hread, rfl⟩ := Outcome.map_eq_ok.mp h
  exact ⟨hread, rfl⟩

theorem Registry.know_error {r : Registry} {text : String} {f : ExpressionError}
    (h : r.know text = .error f) : Expression.read text = .error f := by
  unfold know at h
  cases hread : Expression.read text with
  | ok e => rw [hread] at h; cases h
  | error g => rw [hread] at h; cases h; rfl

/-! Checks of what is known. -/

namespace Rules
variable (rules : Rules)

/-- An interpolation with what a fresh reading of its text gives. -/
def knownSite (i : Interpolation) : KnownSite := ⟨i, rules.registry.know i.raw⟩

theorem checkKnownEscaping_eq (raw : String) (e : Expression) :
    rules.checkKnownEscaping raw ⟨e, e.escapes rules.registry.isEscaping⟩ =
      rules.checkEscaping raw e := by
  unfold checkKnownEscaping checkEscaping Expression.checkEscaping
  have hnone : e.escapes (fun _ => false) = false := by simp [Expression.escapes]
  simp [hnone]

/-- What is remembered of a text is as good as the text. -/
theorem checkKnown_eq [Formats] (i : Interpolation) :
    rules.checkKnown (rules.knownSite i) = rules.checkSite i.reading := by
  unfold checkKnown checkSite knownSite
  cases hread : rules.registry.know i.raw with
  | error f => simp only [Interpolation.reading, Registry.know_error hread]
  | ok k =>
    obtain ⟨hok, hescapes⟩ := Registry.know_ok hread
    obtain ⟨e, escapes⟩ := k
    simp only [] at hok hescapes
    subst hescapes
    simp only [Interpolation.reading, hok, checkKnownEscaping_eq]

theorem checkKnownSecurity_eq (i : Interpolation) :
    rules.checkKnownSecurity (rules.knownSite i) = rules.checkSecurity i.reading := by
  unfold checkKnownSecurity checkSecurity knownSite
  cases hread : rules.registry.know i.raw with
  | error f => simp only [Interpolation.reading, Registry.know_error hread]
  | ok k =>
    obtain ⟨hok, hescapes⟩ := Registry.know_ok hread
    obtain ⟨e, escapes⟩ := k
    simp only [] at hok hescapes
    subst hescapes
    simp only [Interpolation.reading, hok, checkKnownEscaping_eq]

end Rules

namespace Checker

/-! What operations are about. -/

/-- The texts that a check reads as expressions. -/
def Check.texts : Check → List String
  | .site i => [i.raw]
  | .security d => d.sites.map Interpolation.raw
  | .document d => d.sites.map Interpolation.raw
  | _ => []

def Operation.texts : Operation → List String
  | .collect check => check.texts
  | .refuse check => check.texts
  | .read text => [text]
  | _ => []

/-- The texts read since all was forgotten, when an operation comes behind those that were read. -/
def Operation.textsAfter (texts : List String) : Operation → List String
  | .forget => []
  | op => texts ++ op.texts

/-- The rules behind an operation: only the mode and the platform can be changed. -/
def Operation.rulesAfter (rules : Rules) : Operation → Rules
  | .setMode mode => { rules with mode }
  | .setPlatform platform => { rules with platform }
  | _ => rules

/-- The findings of a check without a memory. -/
def Check.findings [Formats] (rules : Rules) : Check → List Diagnostic
  | .value v s => s.checkValue v
  | .chain calls => calls.flatMap (FilterCall.check rules.registry rules.platform)
  | .site i => rules.checkSite i.reading
  | .component t content => t.checkUse rules.registry rules.platform content
  | .tree root => root.checkStructure
  | .cmsHeader h => h.check
  | .platformHeader h => h.check rules.registry
  | .security d => d.sites.flatMap fun i => rules.checkSecurity i.reading
  | .document d => rules.checkDocument d

/-- The answers when every operation is given to a checker of its own that knows nothing. -/
def freshAnswers [Formats] (rules : Rules) : List Operation → List Answer
  | [] => []
  | op :: rest => ((ofRules rules).perform op).1 :: freshAnswers (op.rulesAfter rules) rest

/-! Reading. -/

/-- The checker knows the expressions among the texts, each once and as its registry reads it. -/
structure Remembers (texts : List String) (c : Checker) : Prop where
  faithful : ∀ e ∈ c.known, c.rules.registry.know e.1 = .ok e.2
  distinct : Table.Distinct c.known
  complete : ∀ t, t ∈ c.known.map (·.1) ↔ t ∈ texts ∧ Expression.isReadable t = true

namespace Remembers
variable {texts : List String} {c : Checker}

theorem fresh (rules : Rules) : Remembers [] (ofRules rules) :=
  ⟨fun _ he => absurd he List.not_mem_nil, Table.distinct_nil, by simp [ofRules]⟩

/-- Only the registry matters, for reading asks nothing else. -/
theorem withRules (h : Remembers texts c) {rules : Rules}
    (hregistry : rules.registry = c.rules.registry) :
    Remembers texts { c with rules } :=
  ⟨fun e he => by rw [hregistry]; exact h.faithful e he, h.distinct, h.complete⟩

end Remembers

/-- What reading a text does to a checker: nothing, when the text is known or is no expression,
    and else the text becomes known. -/
theorem recall_cases {texts : List String} {c : Checker} (h : Remembers texts c) (text : String) :
    (∃ k, c.rules.registry.know text = .ok k ∧ text ∈ c.known.map (·.1) ∧
      c.recallText text = (.ok k, c)) ∨
    (∃ k, c.rules.registry.know text = .ok k ∧ text ∉ c.known.map (·.1) ∧
      c.recallText text = (.ok k, { c with known := c.known ++ [(text, k)] })) ∨
    (∃ f, c.rules.registry.know text = .error f ∧ c.recallText text = (.error f, c)) := by
  cases hlookup : Table.lookup text c.known with
  | some k =>
    have hmem : (text, k) ∈ c.known := Table.mem_of_lookup hlookup
    have hkey : text ∈ c.known.map (·.1) := List.mem_map.mpr ⟨(text, k), hmem, rfl⟩
    have hrecall : c.recallText text = (.ok k, c) := by rw [recallText, hlookup]
    exact .inl ⟨k, h.faithful (text, k) hmem, hkey, hrecall⟩
  | none =>
    have hnew : text ∉ c.known.map (·.1) := Table.not_mem_of_lookup hlookup
    cases hknow : c.rules.registry.know text with
    | ok k =>
      have hrecall : c.recallText text = (.ok k, { c with known := c.known ++ [(text, k)] }) := by
        rw [recallText, hlookup]
        simp only [hknow]
      exact .inr (.inl ⟨k, rfl, hnew, hrecall⟩)
    | error f =>
      have hrecall : c.recallText text = (.error f, c) := by
        rw [recallText, hlookup]
        simp only [hknow]
      exact .inr (.inr ⟨f, rfl, hrecall⟩)

/-- The checker has the rules still, and knows what it knew and what it has read since. -/
structure Reads (c : Checker) (texts read : List String) (c' : Checker) : Prop where
  rules : c'.rules = c.rules
  remembers : Remembers (texts ++ read) c'

namespace Remembers
variable {texts : List String} {c : Checker}

theorem reads_nothing (h : Remembers texts c) : Reads c texts [] c :=
  ⟨rfl, by rwa [List.append_nil]⟩

theorem recallText (h : Remembers texts c) (text : String) :
    (c.recallText text).1 = c.rules.registry.know text ∧
      Reads c texts [text] (c.recallText text).2 := by
  rcases recall_cases h text with ⟨k, hknow, hmem, heq⟩ | ⟨k, hknow, hnew, heq⟩ | ⟨f, hknow, heq⟩
  · rw [heq]
    refine ⟨hknow.symm, rfl, h.faithful, h.distinct, fun t => ?_⟩
    -- the text is known, so reading it brings nothing new
    have htext := (h.complete text).mp hmem
    rw [h.complete, List.mem_append, List.mem_singleton]
    constructor
    · exact fun ht => ⟨.inl ht.1, ht.2⟩
    · rintro ⟨ht | rfl, hread⟩
      · exact ⟨ht, hread⟩
      · exact htext
  · rw [heq]
    have hread : Expression.isReadable text = true := by
      simp [Expression.isReadable, (Registry.know_ok hknow).1, Except.isOk, Except.toBool]
    refine ⟨hknow.symm, rfl, ?_, ?_, fun t => ?_⟩
    · intro e he
      rcases List.mem_append.mp he with he | he
      · exact h.faithful e he
      · obtain rfl := List.mem_singleton.mp he
        exact hknow
    · have hdistinct : Table.Distinct (Table.insert c.known text k) := h.distinct.insert text k
      rwa [Table.insert_of_not_mem k hnew] at hdistinct
    · rw [List.map_append, List.mem_append, h.complete, List.mem_append, List.mem_singleton]
      constructor
      · rintro (ht | ht)
        · exact ⟨.inl ht.1, ht.2⟩
        · obtain rfl : t = text := by simpa using ht
          exact ⟨.inr rfl, hread⟩
      · rintro ⟨ht | rfl, hreadable⟩
        · exact .inl ⟨ht, hreadable⟩
        · exact .inr (by simp)
  · rw [heq]
    have hread : Expression.isReadable text = false := by
      simp [Expression.isReadable, Registry.know_error hknow, Except.isOk, Except.toBool]
    refine ⟨hknow.symm, rfl, h.faithful, h.distinct, fun t => ?_⟩
    -- what is no expression is not remembered, and is not counted among the texts either
    rw [h.complete, List.mem_append, List.mem_singleton]
    constructor
    · exact fun ht => ⟨.inl ht.1, ht.2⟩
    · rintro ⟨ht | rfl, hreadable⟩
      · exact ⟨ht, hreadable⟩
      · rw [hread] at hreadable
        cases hreadable

/-- A text reads as it does afresh, whatever is known. -/
theorem read (h : Remembers texts c) (text : String) :
    (c.read text).1 = Expression.read text ∧ Reads c texts [text] (c.read text).2 := by
  obtain ⟨hresult, hreads⟩ := h.recallText text
  refine ⟨?_, hreads⟩
  show (c.recallText text).1.map KnownExpression.expression = Expression.read text
  rw [hresult]
  cases hknow : c.rules.registry.know text with
  | ok k => exact (Registry.know_ok hknow).1.symm
  | error f => exact (Registry.know_error hknow).symm

theorem recallSites (h : Remembers texts c) (sites : List Interpolation) :
    (c.recallSites sites).1 = sites.map c.rules.knownSite ∧
      Reads c texts (sites.map Interpolation.raw) (c.recallSites sites).2 := by
  induction sites generalizing texts c with
  | nil => exact ⟨rfl, h.reads_nothing⟩
  | cons i sites ih =>
    obtain ⟨hresult, hrules, hremembers⟩ := h.recallText i.raw
    obtain ⟨hsites, hrules', hremembers'⟩ := ih hremembers
    refine ⟨?_, hrules'.trans hrules, ?_⟩
    · show ⟨i, (c.recallText i.raw).1⟩ :: ((c.recallText i.raw).2.recallSites sites).1 = _
      rw [hsites, hresult, hrules]
      rfl
    · rw [List.append_assoc, List.singleton_append] at hremembers'
      exact hremembers'

/-- A check finds what its rules say, whatever is known. -/
theorem inspect [Formats] (h : Remembers texts c) (check : Check) :
    (c.inspect check).1 = check.findings c.rules ∧
      Reads c texts check.texts (c.inspect check).2 := by
  cases check with
  | site i =>
    obtain ⟨hresult, hreads⟩ := h.recallText i.raw
    refine ⟨?_, hreads⟩
    show (c.recallText i.raw).2.rules.checkKnown ⟨i, (c.recallText i.raw).1⟩ = _
    rw [hreads.rules, hresult]
    exact c.rules.checkKnown_eq i
  | security d =>
    obtain ⟨hsites, hreads⟩ := h.recallSites d.sites
    refine ⟨?_, hreads⟩
    show (c.recallSites d.sites).1.flatMap (c.recallSites d.sites).2.rules.checkKnownSecurity = _
    rw [hreads.rules, hsites, List.flatMap_map]
    simp only [Rules.checkKnownSecurity_eq]
    rfl
  | document d =>
    obtain ⟨hsites, hreads⟩ := h.recallSites d.sites
    refine ⟨?_, hreads⟩
    have hfound : (d.sites.map c.rules.knownSite).flatMap c.rules.checkKnown =
        (d.sites.map Interpolation.reading).flatMap c.rules.checkSite := by
      simp only [List.flatMap_map, Rules.checkKnown_eq]
    show Findings.sorted ((c.recallSites d.sites).2.rules.findings d [] ++
      (c.recallSites d.sites).1.flatMap (c.recallSites d.sites).2.rules.checkKnown) = _
    rw [hreads.rules, hsites, hfound]
    simp [Check.findings, Rules.checkDocument, Rules.findings]
  | value | chain | component | tree | cmsHeader | platformHeader => exact ⟨rfl, h.reads_nothing⟩

end Remembers

/-! Performing. -/

/-- What an operation answers when nothing is remembered. -/
def Operation.answer [Formats] (rules : Rules) : Operation → Answer
  | .collect check => .findings (check.findings rules)
  | .refuse check => .refusal (Findings.firstError (check.findings rules))
  | .read text => .expression (rules.registry.know text)
  | op => ((ofRules rules).perform op).1

/-- An operation answers what its rules say, whatever is known. -/
theorem perform_answer [Formats] {texts : List String} {c : Checker} (h : Remembers texts c) (op : Operation) :
    (c.perform op).1 = op.answer c.rules := by
  cases op with
  | collect check => exact congrArg Answer.findings (h.inspect check).1
  | refuse check => exact congrArg (fun ds => Answer.refusal (Findings.firstError ds)) (h.inspect check).1
  | read text => exact congrArg Answer.expression (h.recallText text).1
  | path | accepts | normalize | components | filters | describe | setMode | setPlatform | forget => rfl

/-- An operation changes what its kind says of the rules, and what it reads becomes known. -/
theorem Remembers.perform [Formats] {texts : List String} {c : Checker} (h : Remembers texts c)
    (op : Operation) :
    (c.perform op).2.rules = op.rulesAfter c.rules ∧
      Remembers (op.textsAfter texts) (c.perform op).2 := by
  cases op with
  | collect check | refuse check =>
    obtain ⟨-, hrules, hremembers⟩ := h.inspect check
    exact ⟨hrules, hremembers⟩
  | read text =>
    obtain ⟨-, hrules, hremembers⟩ := h.recallText text
    exact ⟨hrules, hremembers⟩
  | path | accepts | normalize | components | filters | describe =>
    exact ⟨rfl, h.reads_nothing.remembers⟩
  | setMode mode =>
    have hsame : Remembers texts { c with rules := { c.rules with mode } } := h.withRules rfl
    exact ⟨rfl, hsame.reads_nothing.remembers⟩
  | setPlatform platform =>
    have hsame : Remembers texts { c with rules := { c.rules with platform } } := h.withRules rfl
    exact ⟨rfl, hsame.reads_nothing.remembers⟩
  | forget => exact ⟨rfl, Remembers.fresh c.rules⟩

/-- A run from any checker answers as fresh checkers do, and remembers what it has read. -/
theorem Remembers.run [Formats] {texts : List String} {c : Checker} (h : Remembers texts c)
    (ops : List Operation) :
    (c.run ops).1 = freshAnswers c.rules ops ∧
      (c.run ops).2.rules = ops.foldl Operation.rulesAfter c.rules ∧
      Remembers (ops.foldl Operation.textsAfter texts) (c.run ops).2 := by
  induction ops generalizing texts c with
  | nil => exact ⟨rfl, rfl, h⟩
  | cons op ops ih =>
    obtain ⟨hrules, hremembers⟩ := h.perform op
    obtain ⟨hanswers, hafter, hknown⟩ := ih hremembers
    -- both checkers answer what the rules say
    have hanswer : (c.perform op).1 = ((ofRules c.rules).perform op).1 :=
      (perform_answer h op).trans (perform_answer (Remembers.fresh c.rules) op).symm
    refine ⟨?_, ?_, hknown⟩
    · show (c.perform op).1 :: ((c.perform op).2.run ops).1 = _
      rw [hanswers, hrules, hanswer]
      rfl
    · show ((c.perform op).2.run ops).2.rules = _
      rw [hafter, hrules]
      rfl

/-- The number of known expressions counts the readable texts, each once. -/
theorem Remembers.knownCount {texts : List String} {c : Checker} (h : Remembers texts c) :
    c.knownCount = (texts.filter Expression.isReadable).toFinset.card := by
  have hkeys : (c.known.map (·.1)).toFinset = (texts.filter Expression.isReadable).toFinset := by
    ext t
    rw [List.mem_toFinset, List.mem_toFinset, h.complete, List.mem_filter]
  calc c.knownCount = (c.known.map (·.1)).length := (List.length_map _).symm
    _ = (c.known.map (·.1)).toFinset.card := (List.toFinset_card_of_nodup h.distinct).symm
    _ = (texts.filter Expression.isReadable).toFinset.card := by rw [hkeys]

/-- What is remembered cannot be seen: in a run of operations each one answers as a fresh checker
    with the same registry and the mode and platform of that moment, and the number of known
    expressions is the number of distinct texts that were read as expressions since all was
    forgotten. -/
theorem run_transparent [Formats] (rules : Rules) (ops : List Operation) :
    ((ofRules rules).run ops).1 = freshAnswers rules ops ∧
      ((ofRules rules).run ops).2.rules = ops.foldl Operation.rulesAfter rules ∧
      ((ofRules rules).run ops).2.knownCount =
        ((ops.foldl Operation.textsAfter []).filter Expression.isReadable).toFinset.card := by
  obtain ⟨hanswers, hrules, hremembers⟩ := (Remembers.fresh rules).run ops
  exact ⟨hanswers, hrules, hremembers.knownCount⟩

end Checker
end BraceTemplate
