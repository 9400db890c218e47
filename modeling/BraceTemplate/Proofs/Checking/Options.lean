import BraceTemplate.Proofs.Checking.Located

/- What the options of a compilation change. The security mode and the target platform are read by
   one check each, so two runs of the checks that differ in one of them have the same findings but
   for those of a few codes: these get another severity, or are not there (`Revision`). Sorting the
   findings, showing their lines and splitting them by severity carries that over to compilations.
   The lenient mode only turns the errors about escaping into warnings (`Rules.compile_relaxed`),
   and a target platform only adds errors about itself (`Rules.compile_targeted`). -/
namespace BraceTemplate

/-! Sorting. -/

namespace Findings

/-- A list is cut in one way only into a part without and a part with a property. -/
theorem cut_unique {α : Type} {p : α → Bool} {xs ys xs' ys' : List α} (h : xs ++ ys = xs' ++ ys')
    (hxs : ∀ x ∈ xs, p x = false) (hys : ∀ y ∈ ys, p y = true) (hxs' : ∀ x ∈ xs', p x = false)
    (hys' : ∀ y ∈ ys', p y = true) : xs = xs' ∧ ys = ys' := by
  have hcut : ∀ {as bs : List α}, (∀ a ∈ as, p a = false) → (∀ b ∈ bs, p b = true) →
      (as ++ bs).filter p = bs ∧ (as ++ bs).filter (!p ·) = as := by
    intro as bs has hbs
    rw [List.filter_append, List.filter_append, List.filter_eq_nil_iff.mpr (by simpa using has),
      List.filter_eq_self.mpr hbs, List.filter_eq_self.mpr (by simpa using has),
      List.filter_eq_nil_iff.mpr (by simpa using hbs), List.nil_append, List.append_nil]
    exact ⟨rfl, rfl⟩
  obtain ⟨hback, hfront⟩ := hcut hxs hys
  obtain ⟨hback', hfront'⟩ := hcut hxs' hys'
  rw [h] at hback hfront
  exact ⟨hfront.symm.trans hfront', hback.symm.trans hback'⟩

/-- The first finding is put in front of those that must not stand before it. -/
theorem sorted_cons (f : Diagnostic) (ds : List Diagnostic) : ∃ before after,
    sorted (f :: ds) = before ++ f :: after ∧ sorted ds = before ++ after ∧
      (∀ g ∈ before, inOrder f g = false) ∧ ∀ g ∈ after, inOrder f g = true := by
  obtain ⟨before, after, hsorted, hrest, hbefore⟩ := List.mergeSort_cons inOrder_trans inOrder_total f ds
  refine ⟨before, after, hsorted, hrest, by simpa using hbefore, ?_⟩
  have hpairs := sorted_inOrder (f :: ds)
  rw [sorted, hsorted] at hpairs
  exact (List.pairwise_cons.mp (List.pairwise_append.mp hpairs).2.1).1

/-- Sorting is stable, so leaving findings out and changing others, their positions apart, may as
    well be done afterwards. -/
theorem sorted_filterMap {g : Diagnostic → Option Diagnostic}
    (hg : ∀ f f', g f = some f' → f'.pos = f.pos) (ds : List Diagnostic) :
    sorted (ds.filterMap g) = (sorted ds).filterMap g := by
  induction ds with
  | nil => simp [sorted]
  | cons f ds ih =>
    obtain ⟨before, after, hsorted, hrest, hbefore, hafter⟩ := sorted_cons f ds
    rw [hrest, List.filterMap_append] at ih
    rw [hsorted, List.filterMap_append, List.filterMap_cons, List.filterMap_cons]
    cases hf : g f with
    | none => exact ih
    | some f' =>
      have hkept : ∀ {bs : List Diagnostic} {v : Bool}, (∀ b ∈ bs, inOrder f b = v) →
          ∀ b' ∈ bs.filterMap g, inOrder f' b' = v := by
        intro bs v h b' hb'
        obtain ⟨b, hb, hgb⟩ := List.mem_filterMap.mp hb'
        rw [inOrder, hg f f' hf, hg b b' hgb]
        exact h b hb
      -- it is put where it was before it changed
      obtain ⟨before', after', hsorted', hrest', hbefore', hafter'⟩ := sorted_cons f' (ds.filterMap g)
      obtain ⟨hfront, hback⟩ := cut_unique (hrest'.symm.trans ih) hbefore' hafter' (hkept hbefore)
        (hkept hafter)
      rw [hsorted', hfront, hback]

end Findings

/-! Findings of two runs. -/

/-- Whether the finding has one of the codes. -/
def Diagnostic.hasCode (codes : List Code) (f : Diagnostic) : Bool := (codes.map Code.name).contains f.code

/-- The finding with another severity. -/
def Diagnostic.withSeverity (f : Diagnostic) (s : Severity) : Diagnostic := { f with severity := s }

namespace Diagnostic
variable (f : Diagnostic) (s : Severity)

@[simp] theorem withSeverity_hasCode (codes : List Code) :
    (f.withSeverity s).hasCode codes = f.hasCode codes := rfl

@[simp] theorem withSeverity_isError : (f.withSeverity s).isError = (s == .error) := rfl

@[simp] theorem withSeverity_isWarning : (f.withSeverity s).isWarning = (s == .warning) := rfl

end Diagnostic

/-- What becomes of the errors with some codes in another run of the checks: they have another
    severity there, or are not reported. -/
structure Revision where
  codes : List Code
  severity : Option Severity

/-- A change that says more about a finding and leaves its code and its severity alone. -/
structure Diagnostic.Annotates (note : Diagnostic → Diagnostic) : Prop where
  code : ∀ f, (note f).code = f.code
  isError : ∀ f, (note f).isError = f.isError
  withSeverity : ∀ f s, note (f.withSeverity s) = (note f).withSeverity s

theorem Diagnostic.annotates_withNode (kind name : String) : Annotates (·.withNode kind name) :=
  ⟨fun _ => rfl, fun _ => rfl, fun _ _ => rfl⟩

theorem Diagnostic.annotates_located (pos : Position) : Annotates (·.located pos) :=
  ⟨fun _ => rfl, fun _ => rfl, fun _ _ => rfl⟩

theorem Diagnostic.Annotates.comp {note note' : Diagnostic → Diagnostic} (h : Annotates note)
    (h' : Annotates note') : Annotates fun f => note (note' f) where
  code f := by rw [h.code, h'.code]
  isError f := by rw [h.isError, h'.isError]
  withSeverity f s := by rw [h'.withSeverity, h.withSeverity]

theorem Diagnostic.annotates_fillSnippet (lines : List (List Char)) : Annotates (fillSnippet lines) where
  code f := (f.fillSnippet_keeps lines).2.1
  isError f := by rw [isError, (f.fillSnippet_keeps lines).1, isError]
  withSeverity f s := by
    obtain ⟨_, _, _, _, _, pos, snippet⟩ := f
    cases pos <;> cases snippet <;> rfl

namespace Revision
variable (rev : Revision)

/-- The finding in the other run. -/
def revise (f : Diagnostic) : Option Diagnostic :=
  if f.hasCode rev.codes then rev.severity.map f.withSeverity else some f

variable {rev}

theorem revise_of_not {f : Diagnostic} (h : f.hasCode rev.codes = false) : rev.revise f = some f := by
  rw [revise, if_neg (by simp [h])]

theorem revise_of_hasCode {f : Diagnostic} (h : f.hasCode rev.codes = true) :
    rev.revise f = rev.severity.map f.withSeverity := by
  rw [revise, if_pos h]

theorem revise_pos {f f' : Diagnostic} (h : rev.revise f = some f') : f'.pos = f.pos := by
  cases hcode : f.hasCode rev.codes with
  | false =>
    rw [revise_of_not hcode] at h
    rw [Option.some.inj h]
  | true =>
    rw [revise_of_hasCode hcode] at h
    obtain ⟨s, -, rfl⟩ := Option.map_eq_some_iff.mp h
    rfl

theorem revise_note {note : Diagnostic → Diagnostic} (hnote : Diagnostic.Annotates note) (f : Diagnostic) :
    rev.revise (note f) = (rev.revise f).map note := by
  rw [revise, revise, Diagnostic.hasCode, Diagnostic.hasCode, hnote.code]
  split
  · rw [Option.map_map]
    exact congrArg (rev.severity.map ·) (funext fun s => (hnote.withSeverity f s).symm)
  · rfl

/-- The second list are the findings of the other run, and those that are revised are errors. -/
structure Relates (rev : Revision) (ds ds' : List Diagnostic) : Prop where
  revised : ds' = ds.filterMap rev.revise
  errors : ∀ f ∈ ds, f.hasCode rev.codes = true → f.isError = true

namespace Relates
variable {α : Type} {ds ds' es es' : List Diagnostic}

theorem nil : rev.Relates [] [] := ⟨rfl, fun _ hf => absurd hf List.not_mem_nil⟩

theorem append (h : rev.Relates ds ds') (h' : rev.Relates es es') : rev.Relates (ds ++ es) (ds' ++ es') :=
  ⟨by rw [List.filterMap_append, h.revised, h'.revised],
    List.forall_mem_append.mpr ⟨h.errors, h'.errors⟩⟩

theorem flatMap {xs : List α} {check check' : α → List Diagnostic}
    (h : ∀ x ∈ xs, rev.Relates (check x) (check' x)) : rev.Relates (xs.flatMap check) (xs.flatMap check') := by
  induction xs with
  | nil => exact nil
  | cons x xs ih => exact (h x List.mem_cons_self).append (ih fun y hy => h y (List.mem_cons_of_mem x hy))

theorem map (h : rev.Relates ds ds') {note : Diagnostic → Diagnostic} (hnote : Diagnostic.Annotates note) :
    rev.Relates (ds.map note) (ds'.map note) where
  revised := by
    rw [h.revised, List.map_filterMap, List.filterMap_map]
    exact congrArg (ds.filterMap ·) (funext fun f => (revise_note hnote f).symm)
  errors := by
    refine List.forall_mem_map.mpr fun f hf hcode => ?_
    rw [hnote.isError]
    exact h.errors f hf (by rwa [Diagnostic.hasCode, hnote.code] at hcode)

/-- Findings with other codes are the same in both runs. -/
theorem same {codes : List Code} (h : Findings.Among codes ds)
    (hcodes : ∀ c ∈ codes, (rev.codes.map Code.name).contains c.name = false) : rev.Relates ds ds := by
  have hother : ∀ f ∈ ds, f.hasCode rev.codes = false := by
    intro f hf
    obtain ⟨c, hc, hreports⟩ := h f hf
    rw [Diagnostic.hasCode, hreports.code]
    exact hcodes c hc
  refine ⟨?_, fun f hf hcode => ?_⟩
  · rw [List.filterMap_congr fun f hf => revise_of_not (hother f hf), List.filterMap_some]
  · rw [hother f hf] at hcode
    cases hcode

theorem single {f : Diagnostic} {c : Code} (h : f.Reports c)
    (hc : (rev.codes.map Code.name).contains c.name = false) : rev.Relates [f] [f] :=
  same (.single (List.mem_singleton.mpr rfl) h) (List.forall_mem_singleton.mpr hc)

theorem sorted (h : rev.Relates ds ds') : rev.Relates (Findings.sorted ds) (Findings.sorted ds') where
  revised := by rw [h.revised, Findings.sorted_filterMap fun _ _ => revise_pos]
  errors f hf := h.errors f ((Findings.sorted_perm ds).mem_iff.mp hf)

/-! By severity. -/

/-- The errors of the other run are those that are not revised. -/
theorem errors_eq (h : rev.Relates ds ds') (hrev : rev.severity ≠ some .error) :
    Findings.errors ds' = (Findings.errors ds).filter (!·.hasCode rev.codes) := by
  rw [h.revised, Findings.errors, List.filter_filterMap, Findings.errors, List.filter_filter,
    ← List.filterMap_eq_filter]
  refine List.filterMap_congr fun f _ => ?_
  cases hcode : f.hasCode rev.codes with
  | false => simp [revise_of_not hcode, Option.guard, Option.filter, hcode]
  | true =>
    cases hseverity : rev.severity with
    | none => simp [revise_of_hasCode hcode, hseverity, Option.guard, Option.filter, hcode]
    | some s =>
      have hs : s ≠ .error := fun heq => hrev (heq ▸ hseverity)
      simp [revise_of_hasCode hcode, hseverity, Option.guard, Option.filter, hcode, hs]

/-- The warnings are those of the other run that are not revised. -/
theorem warnings_eq (h : rev.Relates ds ds') :
    Findings.warnings ds = (Findings.warnings ds').filter (!·.hasCode rev.codes) := by
  rw [h.revised, Findings.warnings, Findings.warnings, List.filter_filter, List.filter_filterMap,
    ← List.filterMap_eq_filter]
  refine List.filterMap_congr fun f hf => ?_
  cases hcode : f.hasCode rev.codes with
  | false => simp [revise_of_not hcode, Option.guard, Option.filter, hcode]
  | true =>
    have herror := h.errors f hf hcode
    cases hseverity : rev.severity <;>
      simp [revise_of_hasCode hcode, hseverity, Option.guard, Option.filter, hcode, Diagnostic.isWarning_eq, herror]

/-- The warnings of the other run that are revised were errors. -/
theorem revised_eq (h : rev.Relates ds ds') (hrev : rev.severity ≠ some .error) :
    (Findings.warnings ds').filter (·.hasCode rev.codes) =
      ((Findings.errors ds).filter (·.hasCode rev.codes)).filterMap rev.revise := by
  rw [h.revised, Findings.warnings, Findings.errors, List.filter_filter, List.filter_filter,
    List.filter_filterMap, List.filterMap_filter]
  refine List.filterMap_congr fun f hf => ?_
  cases hcode : f.hasCode rev.codes with
  | false => simp [revise_of_not hcode, hcode]
  | true =>
    have herror := h.errors f hf hcode
    cases hseverity : rev.severity with
    | none => simp [revise_of_hasCode hcode, hseverity]
    | some s =>
      have hs : s ≠ .error := fun heq => hrev (heq ▸ hseverity)
      simp [revise_of_hasCode hcode, hseverity, hcode, herror, Diagnostic.isWarning_eq, hs]

/-- Where nothing is reported in the place of what is revised, the warnings stay the same. -/
theorem warnings_of_none (h : rev.Relates ds ds') (hrev : rev.severity = none) :
    Findings.warnings ds' = Findings.warnings ds := by
  rw [h.warnings_eq, eq_comm, List.filter_eq_self]
  intro f hf
  have hrevised := h.revised_eq (by simp [hrev])
  -- what is revised leaves nothing
  rw [List.filterMap_eq_nil_iff.mpr fun g hg => by rw [revise_of_hasCode (List.mem_filter.mp hg).2, hrev]; rfl,
    List.filter_eq_nil_iff] at hrevised
  simpa using hrevised f hf

end Relates
end Revision

/-! Compilations. -/

/-- Both fail for the same reason, or both have a value and the values are related. -/
def Outcome.Agree {α β ε : Type} (related : α → β → Prop) : Except ε α → Except ε β → Prop
  | .error e, .error e' => e = e'
  | .ok a, .ok b => related a b
  | _, _ => False

namespace Rules
variable [Formats] (r : Registry) (mode mode' : SecurityMode) (platform platform' : Option String)

/-- No option has a say in whether there is a document. -/
theorem compile_agree {related : Compiled → Compiled → Prop} (source : String)
    (h : ∀ d : Document, related
      (d.compiledWith r (Findings.fillSnippets source (checkDocument ⟨r, mode, platform⟩ d)))
      (d.compiledWith r (Findings.fillSnippets source (checkDocument ⟨r, mode', platform'⟩ d)))) :
    Outcome.Agree related (compile ⟨r, mode, platform⟩ source) (compile ⟨r, mode', platform'⟩ source) := by
  unfold compile
  cases Document.parse source with
  | error e => exact rfl
  | ok d => exact h d

/-- Names and headers are checked in the same way whatever the options are. -/
theorem fillSnippets_relates {rev : Revision} (source : String) (d : Document)
    (hcodes : ∀ c ∈ nameCodes ++ headerCodes, (rev.codes.map Code.name).contains c.name = false)
    (huses : ∀ n ∈ d.nodes, rev.Relates (n.checkUse r platform) (n.checkUse r platform'))
    (hsites : ∀ i ∈ d.sites, rev.Relates (checkSite ⟨r, mode, platform⟩ i.reading)
      (checkSite ⟨r, mode', platform'⟩ i.reading)) :
    rev.Relates (Findings.fillSnippets source (checkDocument ⟨r, mode, platform⟩ d))
      (Findings.fillSnippets source (checkDocument ⟨r, mode', platform'⟩ d)) := by
  have hnames : Findings.Among nameCodes d.checkNames := .flatMap fun t _ => t.checkNames_among
  refine Revision.Relates.map (Revision.Relates.sorted ?_) (Diagnostic.annotates_fillSnippet _)
  rw [findings, findings, List.flatMap_map, List.flatMap_map]
  refine (((Revision.Relates.same hnames ?_).append (.same (checkHeaders_among _ d.preamble) ?_)).append
    (.flatMap huses)).append (.flatMap hsites)
  · exact fun c hc => hcodes c (List.mem_append_left _ hc)
  · exact fun c hc => hcodes c (List.mem_append_right _ hc)

end Rules

/-! The security mode. -/

/-- A compilation in the lenient mode differs from one in the strict mode by the severity of what is
    not escaped. -/
structure Compiled.Relaxed (strict lenient : Compiled) : Prop where
  document : lenient.document = strict.document
  errors : lenient.errors = strict.errors.filter (!·.hasCode [.missingEscaping])
  warnings : strict.warnings = lenient.warnings.filter (!·.hasCode [.missingEscaping])
  demoted : lenient.warnings.filter (·.hasCode [.missingEscaping]) =
    (strict.errors.filter (·.hasCode [.missingEscaping])).map (·.withSeverity .warning)

/-- What the lenient mode makes of the findings of the strict one. -/
def Revision.relax : Revision := ⟨[.missingEscaping], some .warning⟩

namespace Rules
open Revision (Relates relax)
variable (r : Registry) (platform : Option String)

theorem checkEscaping_relates (raw : String) (e : Expression) :
    relax.Relates (checkEscaping ⟨r, .strict, platform⟩ raw e) (checkEscaping ⟨r, .lenient, platform⟩ raw e) := by
  unfold checkEscaping Expression.checkEscaping
  split
  · exact .nil
  · refine ⟨?_, fun f hf _ => ?_⟩
    · rw [List.filterMap_cons_some (Revision.revise_of_hasCode rfl)]
      rfl
    · rw [List.mem_singleton.mp hf]
      rfl

/-- Of the checks of an interpolation only that of its escaping looks at the mode. -/
theorem checkSite_relax [Formats] (i : Interpolation) :
    relax.Relates (checkSite ⟨r, .strict, platform⟩ i.reading) (checkSite ⟨r, .lenient, platform⟩ i.reading) := by
  refine .map ?_ ((Diagnostic.annotates_located i.pos).comp (Diagnostic.annotates_withNode "expression" i.raw))
  cases hread : Expression.read i.raw with
  | error e =>
    simp only [Interpolation.reading, hread]
    exact .same e.toDiagnostic_among (by decide)
  | ok e =>
    simp only [Interpolation.reading, hread]
    exact (Relates.same (checkChain_among _ e) (by decide)).append (checkEscaping_relates r platform i.raw e)

/-- The security mode changes severity only. In the lenient mode a source fails for the same reason
    as in the strict one, or compiles to the same document with the same findings in the same order,
    of which those about escaping are warnings and not errors. -/
theorem compile_relaxed [Formats] (source : String) : Outcome.Agree Compiled.Relaxed
    (compile ⟨r, .strict, platform⟩ source) (compile ⟨r, .lenient, platform⟩ source) := by
  refine compile_agree r .strict .lenient platform platform source fun d => ?_
  have hrelates : relax.Relates _ _ := fillSnippets_relates r .strict .lenient platform platform source d
    (by decide) (fun n _ => .same (n.checkUse_among r platform) (by decide))
    fun i _ => checkSite_relax r platform i
  refine ⟨rfl, hrelates.errors_eq nofun, hrelates.warnings_eq, (hrelates.revised_eq nofun).trans ?_⟩
  rw [← List.filterMap_eq_map]
  refine List.filterMap_congr fun f hf => ?_
  exact Revision.revise_of_hasCode (List.mem_filter.mp hf).2

end Rules

/-! Target platforms. -/

/-- The codes of findings about a target platform. -/
def platformCodes : List Code := [.componentPlatformIncompatible, .filterPlatformIncompatible]

/-- A compilation for a platform has some errors about that platform more. -/
structure Compiled.Targeted (general targeted : Compiled) : Prop where
  document : targeted.document = general.document
  warnings : targeted.warnings = general.warnings
  errors : targeted.errors.filter (!·.hasCode platformCodes) = general.errors
  renderable : targeted.isRenderable = true → general.isRenderable = true

/-- What is left of the findings for a platform when there is none. -/
def Revision.release : Revision := ⟨platformCodes, none⟩

theorem Revision.Relates.released {codes : List Code} {ds : List Diagnostic} (h : Findings.Among codes ds)
    (hcodes : ∀ c ∈ codes, (platformCodes.map Code.name).contains c.name = true)
    (herrors : ∀ f ∈ ds, f.isError = true) : release.Relates ds [] := by
  refine ⟨?_, fun f hf _ => herrors f hf⟩
  refine (List.filterMap_eq_nil_iff.mpr fun f hf => ?_).symm
  obtain ⟨c, hc, hreports⟩ := h f hf
  have hcode : f.hasCode release.codes = true := by
    rw [Diagnostic.hasCode, hreports.code]
    exact hcodes c hc
  rw [revise_of_hasCode hcode]
  rfl

theorem Component.checkPlatform_isError (c : Component) (t : Tag) (platform : Option String) :
    ∀ f ∈ c.checkPlatform t platform, f.isError = true := by
  unfold checkPlatform
  split
  · simp
  · split <;> simp

theorem Component.check_release [Formats] (c : Component) (platform : String) (t : Tag) (content : List Node) :
    Revision.release.Relates (c.check (some platform) t content) (c.check none t content) := by
  rw [check_eq, ← List.nil_append (c.check none t content)]
  refine .append ?_ (.same (c.check_general_among t content) (by decide))
  exact .map (.released (c.checkPlatform_among _ t) (by decide) (c.checkPlatform_isError t _))
    (Diagnostic.annotates_withNode "tag" t.name)

/-- A component that is not there on the platform is checked all the same. -/
theorem Node.checkUse_release [Formats] (r : Registry) (platform : String) (n : Node) :
    Revision.release.Relates (n.checkUse r (some platform)) (n.checkUse r none) := by
  cases n with
  | tag t content =>
    refine .map ?_ (Diagnostic.annotates_located t.pos)
    cases r.component? t.name with
    | none => exact .single (c := .unknownComponent) ⟨rfl, rfl⟩ (by decide)
    | some c => exact c.check_release platform t content
  | document | text | comment | interpolation => exact .nil

theorem FilterCall.checkPlatform_isError (c : FilterCall) (spec : FilterSpec) (platform : Option String) :
    ∀ f ∈ c.checkPlatform spec platform, f.isError = true := by
  unfold checkPlatform
  split
  · simp
  · split <;> simp

/-- The arguments of a filter that is not there on the platform are checked all the same. -/
theorem FilterCall.check_release [Formats] (r : Registry) (platform : String) (c : FilterCall) :
    Revision.release.Relates (c.check r (some platform)) (c.check r none) := by
  unfold check
  cases r.filter? c.name with
  | none => exact .single (c := .unknownFilter) ⟨rfl, rfl⟩ (by decide)
  | some spec =>
    exact .append (.released (c.checkPlatform_among spec _) (by decide) (c.checkPlatform_isError spec _))
      (.same (c.checkArguments_among spec) (by decide))

namespace Rules
open Revision (Relates release)
variable (r : Registry) (mode : SecurityMode) (platform : String)

theorem checkSite_release [Formats] (i : Interpolation) :
    release.Relates (checkSite ⟨r, mode, some platform⟩ i.reading) (checkSite ⟨r, mode, none⟩ i.reading) := by
  refine .map ?_ ((Diagnostic.annotates_located i.pos).comp (Diagnostic.annotates_withNode "expression" i.raw))
  cases hread : Expression.read i.raw with
  | error e =>
    simp only [Interpolation.reading, hread]
    exact .same e.toDiagnostic_among (by decide)
  | ok e =>
    simp only [Interpolation.reading, hread]
    exact .append (.flatMap fun c _ => c.check_release r platform)
      (.same (checkEscaping_among ⟨r, mode, none⟩ i.raw e) (by decide))

/-- A target platform only adds errors about that platform. With a platform a source fails for the
    same reason as without one, or compiles to the same document with the same warnings and the same
    errors in the same order, among which stand those about the platform. -/
theorem compile_targeted [Formats] (source : String) : Outcome.Agree Compiled.Targeted
    (compile ⟨r, mode, none⟩ source) (compile ⟨r, mode, some platform⟩ source) := by
  refine compile_agree r mode mode none (some platform) source fun d => ?_
  have hrelates : release.Relates _ _ := fillSnippets_relates r mode mode (some platform) none source d
    (by decide) (fun n _ => n.checkUse_release r platform) fun i _ => checkSite_release r mode platform i
  have herrors := hrelates.errors_eq nofun
  refine ⟨rfl, (hrelates.warnings_of_none rfl).symm, herrors.symm, fun hrenderable => ?_⟩
  rw [Compiled.isRenderable, List.isEmpty_iff] at hrenderable ⊢
  exact herrors.trans (congrArg (List.filter _) hrenderable)

end Rules
end BraceTemplate
