import BraceTemplate.Formats.Standard
import BraceTemplate.Proofs.Checking.Escaping
import BraceTemplate.Proofs.Checking.Values

/- What the checks accept. For each family of checks a predicate says what it asks for, and
   the check is clean just when the predicate holds: the rest of what it reports are warnings.
   A document that meets all of them (`Rules.Accepts`) is one that can be rendered, and there
   is no other (`Rules.compile_renderable_iff`). -/
namespace BraceTemplate

open Findings (Clean)

/-! Names. -/

/-- The names of a tag are words that no code of a renderer uses. -/
structure Tag.WellNamed (t : Tag) : Prop where
  tag : Name.isTag t.name = true ∧ Name.isReserved (Name.ownPart t.name) = false
  attrs : ∀ a ∈ t.attrs, Name.isAttribute a.1 = true ∧ Name.isReserved a.1 = false

theorem Tag.checkName_clean (t : Tag) : Clean t.checkName ↔
    Name.isTag t.name = true ∧ Name.isReserved (Name.ownPart t.name) = false := by
  unfold checkName
  cases Name.isTag t.name <;> simp

theorem Tag.checkAttrName_clean (t : Tag) (name : String) : Clean (t.checkAttrName name) ↔
    Name.isAttribute name = true ∧ Name.isReserved name = false := by
  unfold checkAttrName
  cases Name.isAttribute name <;> simp

theorem Tag.checkNames_clean (t : Tag) : Clean t.checkNames ↔ t.WellNamed := by
  have hattrs : Clean (t.attrs.flatMap fun a =>
      (t.checkAttrName a.1).map (·.withNode "attribute" a.1)) ↔
      ∀ a ∈ t.attrs, Name.isAttribute a.1 = true ∧ Name.isReserved a.1 = false := by
    rw [Findings.clean_flatMap]
    refine forall₂_congr fun a _ => ?_
    rw [Findings.clean_withNode, checkAttrName_clean]
  rw [checkNames, Findings.clean_located, Findings.clean_append, Findings.clean_withNode,
    checkName_clean, hattrs]
  exact ⟨fun ⟨htag, hattrs⟩ => ⟨htag, hattrs⟩, fun h => ⟨h.tag, h.attrs⟩⟩

/-! Headers. -/

/-- The header names a system that is known, and asks for what systems have. -/
structure CmsHeader.Accepted (h : CmsHeader) : Prop where
  system : ∃ cms : Cms, h.cmsType = some cms.name
  set : ∀ capability ∈ h.set, capability ∈ cmsCapabilities

/-- The header names a kind of platform, platforms that are registered, and a semantic
    version if any. -/
structure PlatformHeader.Accepted (r : Registry) (h : PlatformHeader) : Prop where
  kind : ∃ kind : PlatformKind, h.platformType = some kind.name
  targets : ∀ target ∈ h.targets, ∃ p, r.platform? target = some p
  version : ∀ version ∈ h.version, Version.isSemantic version = true

theorem Cms.ofName?_isSome {name : String} :
    (ofName? name).isSome = true ↔ ∃ cms : Cms, cms.name = name := by
  simp only [ofName?, List.find?_isSome, decide_eq_true_eq]
  exact ⟨fun ⟨cms, _, h⟩ => ⟨cms, h⟩, fun ⟨cms, h⟩ => ⟨cms, by cases cms <;> decide, h⟩⟩

theorem PlatformKind.ofName?_isSome {name : String} :
    (ofName? name).isSome = true ↔ ∃ kind : PlatformKind, kind.name = name := by
  simp only [ofName?, List.find?_isSome, decide_eq_true_eq]
  exact ⟨fun ⟨kind, _, h⟩ => ⟨kind, h⟩, fun ⟨kind, h⟩ => ⟨kind, by cases kind <;> decide, h⟩⟩

theorem CmsHeader.typeFindings_clean (h : CmsHeader) :
    Clean h.typeFindings ↔ ∃ cms : Cms, h.cmsType = some cms.name := by
  unfold typeFindings
  cases h.cmsType with
  | none => simp
  | some name =>
    simp only [Findings.clean_ite, Findings.clean_nil, implies_true, true_and, Findings.clean_single]
    rw [Cms.ofName?_isSome]
    simp [eq_comm]

theorem CmsHeader.check_clean (h : CmsHeader) : Clean h.check ↔ h.Accepted := by
  rw [check, Findings.clean_located, Findings.clean_append, typeFindings_clean, setFindings,
    Findings.clean_mapped fun _ => rfl]
  simp only [List.filter_eq_nil_iff, Bool.not_eq_true', Bool.not_eq_false, List.contains_iff_mem]
  exact ⟨fun ⟨hsystem, hset⟩ => ⟨hsystem, hset⟩, fun h => ⟨h.system, h.set⟩⟩

theorem PlatformHeader.typeFindings_clean (h : PlatformHeader) :
    Clean h.typeFindings ↔ ∃ kind : PlatformKind, h.platformType = some kind.name := by
  unfold typeFindings
  cases h.platformType with
  | none => simp
  | some name =>
    simp only [Findings.clean_ite, Findings.clean_nil, implies_true, true_and, Findings.clean_single]
    rw [PlatformKind.ofName?_isSome]
    simp [eq_comm]

theorem PlatformHeader.versionFindings_clean (h : PlatformHeader) :
    Clean h.versionFindings ↔ ∀ version ∈ h.version, Version.isSemantic version = true := by
  unfold versionFindings
  cases h.version <;> simp

theorem PlatformHeader.check_clean (r : Registry) (h : PlatformHeader) :
    Clean (h.check r) ↔ h.Accepted r := by
  rw [check, Findings.clean_located, Findings.clean_append, Findings.clean_append,
    typeFindings_clean, targetFindings, Findings.clean_mapped fun _ => rfl, versionFindings_clean]
  simp only [List.filter_eq_nil_iff, Option.isNone_iff_eq_none, Option.ne_none_iff_exists', ← ne_eq]
  constructor
  · rintro ⟨⟨hkind, htargets⟩, hversion⟩
    exact ⟨hkind, htargets, hversion⟩
  · intro h
    exact ⟨⟨h.kind, h.targets⟩, h.version⟩

/-! Uses of components. -/

/-- The component may stand in the document as the tag uses it. -/
structure Component.Accepts [Formats] (c : Component) (platform : Option String) (t : Tag)
    (content : List Node) : Prop where
  platform : c.platforms.allowsTarget platform = true
  given : ∀ p ∈ c.props, p.2.required = true → ∃ a, t.attr? p.1 = some a ∧ a ≠ .null
  content : c.leaf = true → content = []
  /-- Checking a value that is written finds no error but that it is missing. -/
  values : ∀ a ∈ t.attrs, ∀ s v, c.prop? a.1 = some s → a.2.toJson? = some v →
    ∀ f ∈ s.checkValue (some v), f.isError = true → f.code = Code.requiredValueMissing.name

/-- A value is checked without another error than that it is missing when it is null or
    fits. -/
theorem Schema.check_excused [Formats] (s : Schema) (subject : String) (v : Json.Value) :
    (∀ f ∈ s.check subject (some v), f.isError = true → f.code = Code.requiredValueMissing.name) ↔
      v.isNull = true ∨ s.Fits v := by
  unfold check
  simp only
  split
  · rename_i hnull
    refine iff_of_true (fun f hf _ => ?_) (.inl hnull)
    unfold check.missing at hf
    split at hf
    · rw [List.mem_singleton.mp hf]
      rfl
    · cases hf
  · rename_i hnull
    rw [← s.checkPresent_clean subject, or_iff_right hnull]
    refine forall₂_congr fun f hf => ?_
    -- a value that is present is not reported as missing
    obtain ⟨c, hc, hcode, -⟩ := s.checkPresent_among subject v f hf
    have hother : ∀ c ∈ presentCodes, c.name ≠ Code.requiredValueMissing.name := by decide
    simp [hcode, hother c hc]

namespace Component
variable (c : Component) (platform : Option String) (t : Tag)

theorem propFinding_clean {ds : List Diagnostic} : Clean (ds.filterMap propFinding?) ↔
    ∀ f ∈ ds, f.isError = true → f.code = Code.requiredValueMissing.name := by
  have hone : ∀ f, (∀ g, propFinding? f = some g → g.isError = false) ↔
      (f.isError = true → f.code = Code.requiredValueMissing.name) := by
    intro f
    unfold propFinding?
    by_cases hmissing : f.code = Code.requiredValueMissing.name
    · simp [hmissing]
    · rw [if_neg hmissing]
      split <;> simp [hmissing, Diagnostic.isError]
  simp only [Clean, List.mem_filterMap, forall_exists_index, and_imp]
  exact ⟨fun h f hf => (hone f).mp fun g hg => h g f hf hg,
    fun h g f hf hg => (hone f).mpr (h f hf) g hg⟩

theorem checkPlatform_clean : Clean (c.checkPlatform t platform) ↔
    c.platforms.allowsTarget platform = true := by
  cases platform <;> simp [checkPlatform, PlatformSet.allowsTarget]

theorem gives_iff (prop : String) : gives t prop = true ↔ ∃ a, t.attr? prop = some a ∧ a ≠ .null := by
  simp only [gives, Option.any_eq_true, Bool.not_eq_true']
  refine exists_congr fun a => and_congr_right fun _ => ?_
  cases a <;> simp [AttrValue.isNull]

theorem checkRequired_clean : Clean (c.checkRequired t) ↔
    ∀ p ∈ c.props, p.2.required = true → ∃ a, t.attr? p.1 = some a ∧ a ≠ .null := by
  rw [checkRequired, Findings.clean_mapped fun _ => rfl]
  simp only [List.filter_eq_nil_iff, requiredProps, List.mem_map, List.mem_filter,
    forall_exists_index, and_imp, Bool.not_eq_true', Bool.not_eq_false, gives_iff]
  exact ⟨fun h p hp hrequired => h p.1 p hp hrequired rfl,
    fun h name p hp hrequired hname => hname ▸ h p hp hrequired⟩

theorem checkContent_clean (content : List Node) : Clean (c.checkContent t content) ↔
    (c.leaf = true → content = []) := by
  unfold checkContent
  cases c.leaf <;> simp

theorem checkAttr_clean [Formats] (a : String × AttrValue) : Clean (c.checkAttr t a) ↔
    ∀ s v, c.prop? a.1 = some s → a.2.toJson? = some v →
      ∀ f ∈ s.checkValue (some v), f.isError = true → f.code = Code.requiredValueMissing.name := by
  unfold checkAttr
  cases hprop : c.prop? a.1 with
  | none => simp
  | some s =>
    cases hvalue : a.2.toJson? with
    | none => simp
    | some v =>
      simp only [Findings.clean_withNode, propFinding_clean, Schema.check_excused, Schema.checkValue]
      refine ⟨?_, fun h => h s v rfl rfl⟩
      rintro h _ _ ⟨⟩ ⟨⟩
      exact h

/-- The use of a component is clean when the component accepts it. -/
theorem check_clean [Formats] (content : List Node) : Clean (c.check platform t content) ↔
    c.Accepts platform t content := by
  rw [check, Findings.clean_append, Findings.clean_withNode, Findings.clean_append,
    Findings.clean_append, checkPlatform_clean, checkRequired_clean, checkContent_clean,
    Findings.clean_flatMap]
  simp only [checkAttr_clean]
  constructor
  · rintro ⟨⟨⟨hplatform, hgiven⟩, hcontent⟩, hvalues⟩
    exact ⟨hplatform, hgiven, hcontent, hvalues⟩
  · intro h
    exact ⟨⟨⟨h.platform, h.given⟩, h.content⟩, h.values⟩

end Component

/-- A tag that names no component is only worth a warning. -/
theorem Tag.checkUse_clean [Formats] (r : Registry) (platform : Option String) (t : Tag) (content : List Node) :
    Clean (t.checkUse r platform content) ↔
      ∀ c, r.component? t.name = some c → c.Accepts platform t content := by
  rw [checkUse, Findings.clean_located]
  cases r.component? t.name with
  | none => simp
  | some c => simp [Component.check_clean]

/-! Filter chains. -/

/-- The filter may be called as it is. -/
structure FilterSpec.Accepts [Formats] (spec : FilterSpec) (platform : Option String) (c : FilterCall) : Prop where
  platform : spec.platforms.allowsTarget platform = true
  supplied : ∀ (place : Nat) p, spec.params[place]? = some p → p.required = true →
    ∃ a, c.bound? place p.name = some a
  /-- The value of a reference is not known, so it fits. -/
  typed : ∀ (place : Nat) p a, spec.params[place]? = some p → c.bound? place p.name = some a →
    a.reference = false → TypeExpr.accepts p.typeExpr a.value = true

namespace FilterCall
variable (c : FilterCall) (spec : FilterSpec)

theorem checkParameter_clean [Formats] (place : Nat) (p : Parameter) : Clean (c.checkParameter spec place p) ↔
    (p.required = true → ∃ a, c.bound? place p.name = some a) ∧
      ∀ a, c.bound? place p.name = some a →
        a.reference = false → TypeExpr.accepts p.typeExpr a.value = true := by
  unfold checkParameter
  cases c.bound? place p.name with
  | none => simp
  | some a => cases hreference : a.reference <;> simp [hreference]

/-- What is too much is only worth a warning. -/
theorem checkSurplus_clean : Clean (c.checkSurplus spec) := by
  refine Findings.clean_append.mpr ⟨?_, fun f hf => ?_⟩
  · simp
  · obtain ⟨a, _, hfinding⟩ := List.mem_filterMap.mp hf
    split at hfinding
    · cases hfinding
    · split at hfinding
      · cases hfinding
      · cases hfinding
        rfl

theorem checkPlatform_clean (platform : Option String) : Clean (c.checkPlatform spec platform) ↔
    spec.platforms.allowsTarget platform = true := by
  cases platform <;> simp [checkPlatform, PlatformSet.allowsTarget]

/-- A call is clean when it names a filter that accepts it. -/
theorem check_clean [Formats] (r : Registry) (platform : Option String) : Clean (c.check r platform) ↔
    ∃ spec, r.filter? c.name = some spec ∧ spec.Accepts platform c := by
  unfold check
  cases r.filter? c.name with
  | none => simp
  | some spec =>
    rw [Findings.clean_append, checkArguments, Findings.clean_append, checkPlatform_clean,
      and_iff_left (checkSurplus_clean c spec), Findings.clean_flatMap]
    simp only [List.mem_zipIdx_iff_getElem?, Prod.forall, checkParameter_clean, Option.some.injEq,
      exists_eq_left']
    constructor
    · rintro ⟨hplatform, hparams⟩
      exact ⟨hplatform, fun place p hp => (hparams p place hp).1,
        fun place p a hp => (hparams p place hp).2 a⟩
    · intro h
      exact ⟨h.platform, fun p place hp => ⟨h.supplied place p hp, fun a => h.typed place p a hp⟩⟩

end FilterCall

/-! Interpolations. -/

/-- The interpolation reads, its filters accept their calls, and it escapes where it must. -/
structure Rules.AcceptsSite [Formats] (rules : Rules) (i : Interpolation) : Prop where
  reads : ∃ e, Expression.read i.raw = .ok e ∧ ∀ c ∈ e.calls,
    ∃ spec, rules.registry.filter? c.name = some spec ∧ spec.Accepts rules.platform c
  escapes : rules.mode = .strict → rules.registry.Escapes i

theorem Rules.checkEscaping_clean (rules : Rules) (raw : String) (e : Expression) :
    Clean (rules.checkEscaping raw e) ↔
      (rules.mode = .strict → e.escapes rules.registry.isEscaping = true) := by
  unfold checkEscaping Expression.checkEscaping
  cases e.escapes rules.registry.isEscaping <;> cases rules.mode <;>
    simp [Diagnostic.isError, Diagnostic.plain, SecurityMode.severity]

/-- What is found about an interpolation is clean when it is accepted. -/
theorem Rules.checkSite_clean [Formats] (rules : Rules) (i : Interpolation) :
    Clean (rules.checkSite i.reading) ↔ rules.AcceptsSite i := by
  cases hread : Expression.read i.raw with
  | error err =>
    -- an interpolation that cannot be read is an error, and is not accepted either
    rw [checkSite_error hread, Findings.clean_single]
    refine iff_of_false (fun h => Bool.false_ne_true h.symm) fun h => ?_
    obtain ⟨e, he, -⟩ := h.reads
    rw [hread] at he
    cases he
  | ok e =>
    rw [checkSite_ok hread,
      Findings.clean_map (g := fun f => (f.withNode "expression" i.raw).located i.pos) fun _ => rfl,
      Findings.clean_append, checkChain, Expression.checkCalls, Findings.clean_flatMap,
      checkEscaping_clean, ← rules.registry.escapes_iff hread]
    simp only [FilterCall.check_clean]
    constructor
    · exact fun ⟨hcalls, hstrict⟩ => ⟨⟨e, hread, hcalls⟩, hstrict⟩
    · rintro ⟨⟨e', he', hcalls⟩, hstrict⟩
      rw [hread] at he'
      cases he'
      exact ⟨hcalls, hstrict⟩

/-! Documents. -/

/-- Everything in the document is as the checks ask for it. -/
structure Rules.Accepts [Formats] (rules : Rules) (d : Document) : Prop where
  cms : ∀ h ∈ d.preamble.cms, h.Accepted
  platform : ∀ h ∈ d.preamble.platform, h.Accepted rules.registry
  names : ∀ t content, d.Contains (.tag t content) → t.WellNamed
  uses : ∀ t content, d.Contains (.tag t content) →
    ∀ c, rules.registry.component? t.name = some c → c.Accepts rules.platform t content
  sites : ∀ i, d.Holds i → rules.AcceptsSite i

theorem Document.mem_tags {d : Document} {t : Tag} :
    t ∈ d.tags ↔ ∃ content, d.Contains (.tag t content) := by
  simp only [tags, List.mem_filterMap, mem_nodes]
  constructor
  · rintro ⟨n, hn, htag⟩
    cases n with
    | tag t' content =>
      cases htag
      exact ⟨content, hn⟩
    | document _ _ => cases htag
    | text _ _ => cases htag
    | comment _ _ => cases htag
    | interpolation _ => cases htag
  · exact fun ⟨content, h⟩ => ⟨_, h, rfl⟩

namespace Rules
variable (rules : Rules) (d : Document)

theorem checkNames_clean : Clean d.checkNames ↔
    ∀ t content, d.Contains (.tag t content) → t.WellNamed := by
  simp only [Document.checkNames, Findings.clean_flatMap, Tag.checkNames_clean, Document.mem_tags,
    forall_exists_index]

theorem checkHeaders_clean (p : Preamble) : Clean (rules.checkHeaders p) ↔
    (∀ h ∈ p.cms, h.Accepted) ∧ ∀ h ∈ p.platform, h.Accepted rules.registry := by
  simp only [checkHeaders, Findings.clean_append, Findings.clean_flatMap, CmsHeader.check_clean,
    PlatformHeader.check_clean, Option.mem_toList, Option.mem_def]

theorem checkUses_clean [Formats] : Clean (d.nodes.flatMap (Node.checkUse rules.registry rules.platform)) ↔
    ∀ t content, d.Contains (.tag t content) →
      ∀ c, rules.registry.component? t.name = some c → c.Accepts rules.platform t content := by
  simp only [Findings.clean_flatMap, Document.mem_nodes]
  constructor
  · exact fun h t content ht => (t.checkUse_clean _ _ content).mp (h _ ht)
  · intro h n hn
    cases n with
    | tag t content => exact (t.checkUse_clean _ _ content).mpr (h t content hn)
    | document _ _ => exact Findings.clean_nil
    | text _ _ => exact Findings.clean_nil
    | comment _ _ => exact Findings.clean_nil
    | interpolation _ => exact Findings.clean_nil

/-- The checks of a document are clean when it is accepted. -/
theorem allFindings_clean [Formats] : Clean (rules.allFindings d) ↔ rules.Accepts d := by
  rw [allFindings, findings, Findings.clean_append, Findings.clean_append, Findings.clean_append,
    checkNames_clean, checkHeaders_clean, checkUses_clean, List.flatMap_map, Findings.clean_flatMap]
  simp only [checkSite_clean, Document.mem_sites]
  constructor
  · rintro ⟨⟨⟨hnames, hcms, hplatform⟩, huses⟩, hsites⟩
    exact ⟨hcms, hplatform, hnames, huses, hsites⟩
  · intro h
    exact ⟨⟨⟨h.names, h.cms, h.platform⟩, h.uses⟩, h.sites⟩

/-- A source that has a document compiles, and can be rendered exactly when everything in
    the document is as the checks ask for it. -/
theorem compile_renderable_iff [Formats] {source : String} {d : Document} (h : Document.parse source = .ok d) :
    ∃ c, rules.compile source = .ok c ∧ (c.isRenderable = true ↔ rules.Accepts d) :=
  ⟨_, rules.compile_eq h, (rules.isRenderable_iff source d).trans (rules.allFindings_clean d)⟩

end Rules

/-- A grid whose columns are written as a text. -/
def gridTag : Tag := ⟨"ikb_grid", [("columns", .str "3")], true, ⟨1, 1, 0⟩⟩

theorem Document.parse_grid : Document.parse "\x7bikb_grid columns=\"3\" /\x7d" =
    .ok ⟨⟨none, none, []⟩, [.tag gridTag []]⟩ := by
  have htokens : tokenize "\x7bikb_grid columns=\"3\" /\x7d" =
      .ok (⟨.leftBrace, .none, ⟨1, 1, 0⟩⟩ :: [⟨.ident, .str "ikb_grid", ⟨1, 2, 1⟩⟩,
        ⟨.ident, .str "columns", ⟨1, 11, 10⟩⟩, ⟨.equal, .none, ⟨1, 18, 17⟩⟩,
        ⟨.string, .str "3", ⟨1, 19, 18⟩⟩, ⟨.slash, .none, ⟨1, 23, 22⟩⟩,
        ⟨.rightBrace, .none, ⟨1, 24, 23⟩⟩] ++ [⟨.eof, .none, ⟨1, 25, 24⟩⟩]) := by decide +kernel
  exact parse_tag htokens (by simp) rfl (by decide) (by decide) (by decide +kernel) (by decide)

theorem Rules.compile_renderable_grid :
    Document.parse "\x7bikb_grid columns=\"3\" /\x7d" = .ok ⟨⟨none, none, []⟩, [.tag gridTag []]⟩ ∧
      ∃ c, (ofRegistry (Registry.builtin .full .native)).compile
          "\x7bikb_grid columns=\"3\" /\x7d" = .ok c ∧
        (c.isRenderable = true ↔ (ofRegistry (Registry.builtin .full .native)).Accepts
          ⟨⟨none, none, []⟩, [.tag gridTag []]⟩) :=
  ⟨Document.parse_grid, Rules.compile_renderable_iff _ Document.parse_grid⟩

end BraceTemplate
