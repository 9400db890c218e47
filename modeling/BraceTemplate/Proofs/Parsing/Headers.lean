import BraceTemplate.Proofs.Parsing.Balance

/- Headers. A header stands before all content, closes itself and is the only one of its name
   (`Event.HeadersFit`). Where the headers of events fit, building them is building the other
   events, and the headers are put beside the result (`Builder.addAll_of_fit`); so events build a
   document exactly when their headers fit and the others balance (`Builder.addAll_ok_iff_fit`). -/
namespace BraceTemplate

/-- The fault is that of a header: where it stands, how it ends, or that it is the second. -/
def ParseFault.concernsHeader : ParseFault → Bool
  | .headerAfterContent _ | .headerNotSelfClosing _ | .duplicateHeader _ _ => true
  | _ => false

namespace Event

/-- The tag that is written; a closing tag has none of its own. -/
def tag? : Event → Option Tag
  | .selfClosing t => some t
  | .opening t => some t
  | _ => none

/-- The event is content, which no header follows. A closing tag is none: what it closes was
    content before it. -/
def isContent : Event → Bool
  | .text v _ => !Builder.isBlank v
  | .comment _ _ => false
  | .closing _ _ => false
  | e => !e.isHeader

/-- The event is a tag of this name, or closes one. -/
def bears (name : String) : Event → Bool
  | .closing n _ => n = name
  | e => e.tag?.any (·.name = name)

/-- The header may stand behind these events. -/
structure HeaderFits (before : List Event) (t : Tag) : Prop where
  first : ∀ e ∈ before, e.isContent = false
  closed : t.selfClosing = true
  single : ∀ e ∈ before, ∀ u, e.tag? = some u → u.name ≠ t.name

/-- Every header may stand where it stands. -/
def HeadersFit (es : List Event) : Prop :=
  ∀ before e t, before ++ [e] <+: es → e.tag? = some t → Builder.isHeader t.name = true →
    HeaderFits before t

/-- The first tag of this name. -/
def named? (name : String) (es : List Event) : Option Tag :=
  (es.filterMap tag?).find? (·.name = name)

variable {e : Event} {es : List Event} {t : Tag} {name : String}

theorem isHeader_eq : e.isHeader = e.tag?.any fun t => Builder.isHeader t.name := by
  cases e <;> rfl

theorem isHeader_of_tag? (h : e.tag? = some t) : e.isHeader = Builder.isHeader t.name := by
  rw [isHeader_eq, h, Option.any_some]

theorem isHeader_iff : e.isHeader = true ↔ ∃ t, e.tag? = some t ∧ Builder.isHeader t.name = true := by
  rw [isHeader_eq, Option.any_eq_true]

theorem pos_of_tag? (h : e.tag? = some t) : e.pos = t.pos := by
  cases e with
  | selfClosing u | opening u =>
    cases h
    rfl
  | text | comment | interpolation | closing => cases h

theorem headersFit_nil : HeadersFit [] := by
  intro before e t hfront
  simp at hfront

/-- The headers of events fit when those of all but the last do and the last may stand there. -/
theorem headersFit_append_singleton :
    HeadersFit (es ++ [e]) ↔
      HeadersFit es ∧ ∀ t, e.tag? = some t → Builder.isHeader t.name = true → HeaderFits es t := by
  constructor
  · intro h
    constructor
    · intro before e' t hfront
      exact h before e' t (hfront.trans (List.prefix_append _ _))
    · intro t
      exact h es e t List.prefix_rfl
  · rintro ⟨hes, he⟩ before e' t hfront ht hheader
    rcases List.prefix_concat_iff.mp hfront with heq | hfront
    · obtain ⟨rfl, hlast⟩ := List.append_inj' heq rfl
      obtain rfl := List.singleton_inj.mp hlast
      exact he t ht hheader
    · exact hes before e' t hfront ht hheader

theorem named?_eq_none : named? name es = none ↔ ∀ e ∈ es, ∀ t, e.tag? = some t → t.name ≠ name := by
  simp only [named?, List.find?_eq_none, List.mem_filterMap, decide_eq_true_eq]
  constructor
  · intro h e he t ht
    exact h t ⟨e, he, ht⟩
  · rintro h t ⟨e, he, ht⟩
    exact h e he t ht

theorem named?_append_singleton :
    named? name (es ++ [e]) = (named? name es).or (named? name [e]) := by
  rw [named?, List.filterMap_append, List.find?_append]
  rfl

/-- An event without a tag of the name leaves the first one as it is. -/
theorem named?_of_ne (h : ∀ t, e.tag? = some t → t.name ≠ name) :
    named? name (es ++ [e]) = named? name es := by
  have hlast : named? name [e] = none := by
    apply named?_eq_none.mpr
    simpa using h
  rw [named?_append_singleton, hlast, Option.or_none]

/-- Where none was before, a tag is the first of its name. -/
theorem named?_of_first (ht : e.tag? = some t) (h : named? t.name es = none) :
    named? t.name (es ++ [e]) = some t := by
  have hlast : named? t.name [e] = some t := by simp [named?, ht]
  rw [named?_append_singleton, h, hlast]
  rfl

/-- Tags that do not balance are no matter of headers. -/
theorem Violates.concernsHeader {names : List String} {fault : ParseFault}
    (h : Violates names e fault) : fault.concernsHeader = false := by
  cases h <;> rfl

end Event

open Event (isContent HeaderFits HeadersFit named? opened Balanced Violates)

/-! Building. -/

namespace Builder
variable {b b' : Builder} {e : Event} {es : List Event} {t : Tag} {f : ParseError}

/-- The builder with the headers that events declare. -/
def declaring (b : Builder) (es : List Event) : Builder :=
  { b with
    cms := (named? cmsHeaderName es).map cmsHeader
    platform := (named? platformHeaderName es).map platformHeader }

theorem started_push (b : Builder) (n : Node) : (b.push n).started = b.started := by
  obtain ⟨stack, roots, cms, platform, started⟩ := b
  cases stack <;> rfl

theorem stack_eq_nil_push {n : Node} : (b.push n).stack = [] ↔ b.stack = [] := by
  obtain ⟨stack, roots, cms, platform, started⟩ := b
  cases stack <;> simp [push]

theorem declaring_push (b : Builder) (n : Node) : (b.push n).declaring es = (b.declaring es).push n := by
  obtain ⟨stack, roots, cms, platform, started⟩ := b
  cases stack <;> rfl

/-- Whether content was built, and that no tag is open before it. -/
structure Begins (es : List Event) (b : Builder) : Prop where
  started : b.started = es.any isContent
  outside : b.started = false → b.stack = []

namespace Begins

theorem empty : Begins [] Builder.empty := ⟨rfl, fun _ => rfl⟩

/-- A further node does not matter. -/
theorem push (h : Begins es b) (n : Node) : Begins es (b.push n) := by
  refine ⟨(started_push b n).trans h.started, fun hstarted => ?_⟩
  rw [stack_eq_nil_push]
  exact h.outside ((started_push b n).symm.trans hstarted)

theorem content (he : e.isContent = true) (hstarted : b.started = true) : Begins (es ++ [e]) b := by
  refine ⟨?_, fun hnot => ?_⟩
  · simp [hstarted, he]
  · rw [hstarted] at hnot
    cases hnot

theorem other (h : Begins es b) (he : e.isContent = false) : Begins (es ++ [e]) b := by
  refine ⟨?_, h.outside⟩
  simp [h.started, he]

theorem add (h : Begins es b) (hadd : b.add e = .ok b') : Begins (es ++ [e]) b' := by
  have hheader : ∀ {t : Tag}, e = .selfClosing t ∨ e = .opening t → isHeader t.name = true →
      e.isContent = false := by
    rintro t (rfl | rfl) ht <;> simp [isContent, Event.isHeader, ht]
  cases adds_of_add hadd with
  | text v p =>
    apply push
    by_cases hblank : isBlank v = true
    · rw [if_pos hblank]
      exact h.other (by simp [isContent, hblank])
    · rw [if_neg hblank]
      exact content (by simp [isContent, hblank]) rfl
  | comment v p => exact push (h.other rfl) _
  | interpolation i => exact push (content rfl rfl) _
  | selfClosing ht => exact push (content (by simp [isContent, Event.isHeader, ht]) rfl) _
  | opening ht => exact content (by simp [isContent, Event.isHeader, ht]) rfl
  | cms he hname =>
    have hother := h.other (hheader he (hname ▸ rfl))
    exact ⟨hother.started, hother.outside⟩
  | platform he hname =>
    have hother := h.other (hheader he (hname ▸ rfl))
    exact ⟨hother.started, hother.outside⟩
  | @closing top outer hstack pos =>
    -- a tag is open, so content has begun
    have hstarted : b.started = true := by
      by_contra hnot
      rw [h.outside (by simpa using hnot)] at hstack
      cases hstack
    apply push
    refine ⟨?_, fun hnot => ?_⟩
    · simpa [isContent] using h.started
    · rw [show b.started = false from hnot] at hstarted
      cases hstarted

/-- Before content has begun a header may be taken. -/
theorem front (h : Begins es b) (hfirst : ∀ e ∈ es, e.isContent = false) :
    b.started = false ∧ b.stack = [] := by
  have hstarted : b.started = false := by
    rw [h.started, List.any_eq_false]
    intro e he
    rw [hfirst e he]
    exact Bool.false_ne_true
  exact ⟨hstarted, h.outside hstarted⟩

end Begins

theorem addAll_append_singleton :
    b.addAll (es ++ [e]) = .ok b' ↔ ∃ c, b.addAll es = .ok c ∧ c.add e = .ok b' := by
  rw [addAll_append]
  simp only [← addAll_single]
  exact Outcome.bind_eq_ok

theorem addAll_begins (h : empty.addAll es = .ok b) : Begins es b := by
  induction es using List.reverseRecOn generalizing b with
  | nil =>
    cases h
    exact .empty
  | append_singleton es e ih =>
    obtain ⟨c, hc, hadd⟩ := addAll_append_singleton.mp h
    exact (ih hc).add hadd

/-! Headers beside the others. -/

theorem add_of_header (ht : e.tag? = some t) (hheader : isHeader t.name = true) :
    b.add e = b.declare t := by
  cases e with
  | selfClosing u =>
    cases ht
    rw [add, if_pos hheader]
  | opening u =>
    cases ht
    rw [add, if_pos hheader]
  | text | comment | interpolation | closing => cases ht

/-- The headers of events do not matter to an event that is none. -/
theorem add_declaring (hheader : e.isHeader = false) :
    (b.declaring es).add e = (b.add e).map fun b => b.declaring es := by
  cases e with
  | text v p =>
    simp only [add, Except.map, declaring_push]
    split <;> rfl
  | comment v p => simp only [add, Except.map, declaring_push]
  | interpolation i =>
    simp only [add, Except.map, declaring_push]
    rfl
  | selfClosing t =>
    rw [add_selfClosing hheader, add_selfClosing hheader]
    simp only [Except.map, declaring_push]
    rfl
  | opening t =>
    rw [add_opening hheader, add_opening hheader, Builder.opening, Builder.opening]
    split
    · rename_i hdepth
      rw [if_pos (by exact hdepth)]
      rfl
    · rename_i hdepth
      rw [if_neg (by exact hdepth)]
      rfl
  | closing name pos =>
    obtain ⟨stack, roots, cms, platform, started⟩ := b
    rw [add, add, Builder.closing, Builder.closing]
    cases stack with
    | nil => rfl
    | cons top outer =>
      by_cases hname : top.tag.name = name
      · simp only [declaring, if_pos hname, Except.map]
        cases outer <;> rfl
      · simp only [declaring, if_neg hname, Except.map]

theorem declaring_other (hheader : e.isHeader = false) :
    b.declaring (es ++ [e]) = b.declaring es := by
  have hnamed : ∀ name, isHeader name = true → named? name (es ++ [e]) = named? name es := by
    intro name hname
    apply Event.named?_of_ne
    rintro t ht rfl
    rw [Event.isHeader_of_tag? ht, hname] at hheader
    cases hheader
  rw [declaring, declaring, hnamed cmsHeaderName rfl, hnamed platformHeaderName rfl]

/-- A header that fits is taken out and put beside the others. -/
theorem declare_of_fits (hfits : HeaderFits es t) (ht : e.tag? = some t)
    (hheader : isHeader t.name = true) (hfront : b.started = false ∧ b.stack = []) :
    (b.declaring es).declare t = .ok (b.declaring (es ++ [e])) := by
  have hnone : named? t.name es = none := Event.named?_eq_none.mpr hfits.single
  have hfirst : named? t.name (es ++ [e]) = some t := Event.named?_of_first ht hnone
  have hothers : ∀ name, name ≠ t.name → named? name (es ++ [e]) = named? name es := by
    intro name hne
    apply Event.named?_of_ne
    rintro u hu rfl
    rw [ht] at hu
    cases hu
    exact hne rfl
  have hopen : ((b.declaring es).started || !(b.declaring es).stack.isEmpty) = false := by
    simp [declaring, hfront.1, hfront.2]
  rw [declare, hopen, if_neg Bool.false_ne_true, hfits.closed, Bool.not_true,
    if_neg Bool.false_ne_true]
  by_cases hname : t.name = cmsHeaderName
  · rw [hname] at hnone hfirst hothers
    have hcms : (b.declaring es).cms.isSome = false := by simp [declaring, hnone]
    rw [if_pos hname, hcms, if_neg Bool.false_ne_true, declaring, declaring, hfirst,
      hothers platformHeaderName (by decide)]
    rfl
  · have hname : t.name = platformHeaderName := by simpa [isHeader, hname] using hheader
    rw [hname] at hnone hfirst hothers
    have hplatform : (b.declaring es).platform.isSome = false := by simp [declaring, hnone]
    rw [if_neg (by rw [hname]; decide), hplatform, if_neg Bool.false_ne_true, declaring, declaring,
      hfirst, hothers cmsHeaderName (by decide)]
    rfl

/-- Where headers fit, the other events are built without them. -/
theorem addAll_of_fit (h : HeadersFit es) :
    empty.addAll es = (empty.addAll (es.filter (!·.isHeader))).map fun b => b.declaring es := by
  induction es using List.reverseRecOn with
  | nil => rfl
  | append_singleton es e ih =>
    obtain ⟨hes, he⟩ := Event.headersFit_append_singleton.mp h
    rw [addAll_append, ih hes, List.filter_append, addAll_append]
    cases hothers : empty.addAll (es.filter (!·.isHeader)) with
    | error f => rfl
    | ok b =>
      show (b.declaring es).addAll [e] = (b.addAll _).map _
      rw [addAll_single]
      cases hheader : e.isHeader with
      | false =>
        rw [List.filter_singleton, hheader, add_declaring hheader]
        show _ = (b.addAll [e]).map _
        have hsame : (fun c : Builder => c.declaring (es ++ [e])) = fun c => c.declaring es := by
          funext c
          exact declaring_other hheader
        rw [addAll_single, hsame]
      | true =>
        obtain ⟨t, ht, hname⟩ := Event.isHeader_iff.mp hheader
        have hfits := he t ht hname
        -- no content stands before the header, so nothing is open either
        have hfront := (addAll_begins hothers).front fun e' he' =>
          hfits.first e' (List.mem_of_mem_filter he')
        rw [List.filter_singleton, hheader, add_of_header ht hname, declare_of_fits hfits ht hname hfront]
        rfl

/-- A header that is taken fits. -/
theorem fits_of_add (hbuilt : empty.addAll es = .ok b) (hes : HeadersFit es) (hadd : b.add e = .ok b')
    (ht : e.tag? = some t) (hheader : isHeader t.name = true) : HeaderFits es t := by
  have hfirst : b.started = false → ∀ e' ∈ es, e'.isContent = false := by
    intro hstarted e' he'
    rw [(addAll_begins hbuilt).started, List.any_eq_false] at hstarted
    simpa using hstarted e' he'
  -- the headers of the builder are those that were declared
  obtain ⟨c, -, hdeclaring⟩ := Outcome.map_eq_ok.mp (addAll_of_fit hes ▸ hbuilt)
  have hsame : ∀ {u : Tag}, e = .selfClosing u ∨ e = .opening u → u = t := by
    rintro u (rfl | rfl) <;> exact Option.some.inj ht
  cases adds_of_add hadd with
  | text | comment | interpolation | closing => cases ht
  | @selfClosing u hu | @opening u hu =>
    cases ht
    rw [hu] at hheader
    cases hheader
  | @cms _ u he hname hfront hself hnone =>
    obtain rfl := hsame he
    refine ⟨hfirst hfront.1, hself, ?_⟩
    rw [← hdeclaring, declaring, ← hname] at hnone
    exact Event.named?_eq_none.mp (Option.map_eq_none_iff.mp hnone)
  | @platform _ u he hname hfront hself hnone =>
    obtain rfl := hsame he
    refine ⟨hfirst hfront.1, hself, ?_⟩
    rw [← hdeclaring, declaring, ← hname] at hnone
    exact Event.named?_eq_none.mp (Option.map_eq_none_iff.mp hnone)

/-- A header that fits is taken. -/
theorem add_of_fits (hbuilt : empty.addAll es = .ok b) (hes : HeadersFit es) (hfits : HeaderFits es t)
    (ht : e.tag? = some t) (hheader : isHeader t.name = true) : ∃ b', b.add e = .ok b' := by
  have hfront := (addAll_begins hbuilt).front hfits.first
  obtain ⟨c, -, rfl⟩ := Outcome.map_eq_ok.mp (addAll_of_fit hes ▸ hbuilt)
  exact ⟨_, (add_of_header ht hheader).trans (declare_of_fits hfits ht hheader hfront)⟩

theorem fit_of_addAll (h : empty.addAll es = .ok b) : HeadersFit es := by
  induction es using List.reverseRecOn generalizing b with
  | nil => exact Event.headersFit_nil
  | append_singleton es e ih =>
    obtain ⟨c, hc, hadd⟩ := addAll_append_singleton.mp h
    apply Event.headersFit_append_singleton.mpr
    refine ⟨ih hc, fun t ht hheader => ?_⟩
    exact fits_of_add hc (ih hc) hadd ht hheader

/-- Events build a document exactly when their headers fit and the others balance. -/
theorem addAll_ok_iff_fit :
    (∃ b, empty.addAll es = .ok b) ↔ Balanced (es.filter (!·.isHeader)) ∧ HeadersFit es := by
  have hothers : ∀ e ∈ es.filter (!·.isHeader), e.isHeader = false := by
    intro e he
    simpa using (List.mem_filter.mp he).2
  rw [← addAll_ok_iff hothers]
  constructor
  · rintro ⟨b, hb⟩
    have hfit := fit_of_addAll hb
    obtain ⟨c, hc, -⟩ := Outcome.map_eq_ok.mp (addAll_of_fit hfit ▸ hb)
    exact ⟨⟨c, hc⟩, hfit⟩
  · rintro ⟨⟨c, hc⟩, hfit⟩
    rw [addAll_of_fit hfit, hc]
    exact ⟨_, rfl⟩

theorem declare_error_pos (h : b.declare t = .error f) : f.pos = t.pos := by
  unfold declare at h
  split at h
  · cases h
    rfl
  · split at h
    · cases h
      rfl
    · split at h <;> split at h <;> cases h <;> rfl

/-- What cannot be added is blamed where the event stands. -/
theorem add_error_pos (h : b.add e = .error f) : f.pos = e.pos := by
  cases hheader : e.isHeader with
  | false =>
    obtain ⟨fault, -, rfl⟩ := (add_error_iff hheader).mp h
    rfl
  | true =>
    obtain ⟨t, ht, hname⟩ := Event.isHeader_iff.mp hheader
    rw [add_of_header ht hname] at h
    rw [declare_error_pos h, Event.pos_of_tag? ht]

/-- What is said of a header is said of a tag with the name of one. -/
theorem add_header_fault (h : b.add e = .error f) (hfault : f.fault.concernsHeader = true) :
    ∃ t, e.tag? = some t ∧ isHeader t.name = true ∧ f.pos = t.pos := by
  cases hheader : e.isHeader with
  | false =>
    obtain ⟨fault, hviolates, rfl⟩ := (add_error_iff hheader).mp h
    rw [hviolates.concernsHeader] at hfault
    cases hfault
  | true =>
    obtain ⟨t, ht, hname⟩ := Event.isHeader_iff.mp hheader
    exact ⟨t, ht, hname, (add_error_pos h).trans (Event.pos_of_tag? ht)⟩

end Builder

end BraceTemplate
