import BraceTemplate.Proofs.Parsing.Balance

/- An unclosed tag is an empty one. `Token.closeAtOnce` puts a closing tag directly behind each
   tag that a document leaves open. The builder of those tokens never keeps content under such a
   tag, where the first builder repairs it at the end (`Builder.Released`). The open tags are a
   stack (`Builder.addAll_tags`): a tag that stays open to the end keeps all those around it open,
   so what is above the ones that stay is the same in both builders (`Builder.Parted.run`). The
   documents then have the same content (`Document.ofTokens_closeAtOnce`). -/
namespace BraceTemplate

/-! Open tags. -/

namespace Builder
variable {b c b' c' : Builder} {e : Event} {es : List Event}

/-- The open tags, innermost first. -/
def tags (b : Builder) : List Tag := b.stack.map OpenTag.tag

theorem tags_push (b : Builder) (n : Node) : (b.push n).tags = b.tags := by
  obtain ⟨stack, roots, cms, platform, started⟩ := b
  cases stack <;> rfl

/-- An event opens a tag, closes the innermost, or leaves the open tags alone. -/
inductive Turns (b c : Builder) : Event → Prop where
  | opens {t : Tag} (hheader : isHeader t.name = false) (htags : c.tags = t :: b.tags) :
    Turns b c (.opening t)
  | closes {top : Tag} (pos : Position) (htags : b.tags = top :: c.tags) :
    Turns b c (.closing top.name pos)
  | stays {e : Event} (hclosing : e.isClosing = false) (htags : c.tags = b.tags) : Turns b c e

theorem add_turns (h : b.add e = .ok c) : Turns b c e := by
  cases adds_of_add h with
  | text v p =>
    refine .stays rfl ?_
    rw [tags_push]
    split <;> rfl
  | comment v p => exact .stays rfl (tags_push b _)
  | interpolation i => exact .stays rfl (tags_push b.start _)
  | selfClosing => exact .stays rfl (tags_push b.start _)
  | opening hheader => exact .opens hheader rfl
  | cms he => exact .stays (by rcases he with rfl | rfl <;> rfl) rfl
  | platform he => exact .stays (by rcases he with rfl | rfl <;> rfl) rfl
  | @closing top outer hstack pos =>
    refine .closes pos ?_
    rw [tags_push, tags, hstack]
    rfl

/-- The tags that are open in the end: on top those that were opened since, in the order of their
    events, below them some of the ones at the bottom before. -/
theorem addAll_tags (h : b.addAll es = .ok c) :
    ∃ new kept, c.tags = new ++ kept ∧ kept <:+ b.tags ∧
      (new.reverse.map Event.opening).Sublist es := by
  induction es generalizing b with
  | nil =>
    cases h
    exact ⟨[], _, rfl, List.suffix_rfl, .slnil⟩
  | cons e es ih =>
    rw [addAll] at h
    split at h
    · rename_i added hadd
      obtain ⟨new, kept, htags, hkept, hnew⟩ := ih h
      cases add_turns hadd with
      | @opens t hheader hadded =>
        rw [hadded] at hkept
        rcases List.suffix_cons_iff.mp hkept with rfl | hkept
        · -- the tag stays open, and so do all those around it
          refine ⟨new ++ [t], b.tags, by simp [htags], List.suffix_rfl, ?_⟩
          rw [List.reverse_append, List.reverse_singleton, List.singleton_append, List.map_cons]
          exact hnew.cons_cons _
        · exact ⟨new, kept, htags, hkept, hnew.cons _⟩
      | closes pos hclosed =>
        rw [hclosed]
        exact ⟨new, kept, htags, hkept.trans (List.suffix_cons _ _), hnew.cons _⟩
      | stays _ hadded =>
        rw [hadded] at hkept
        exact ⟨new, kept, htags, hkept, hnew.cons _⟩
    · cases h

/-- The open tags and the events to come stand at places of their own. -/
def Apart (b : Builder) (es : List Event) : Prop :=
  (b.tags.map Tag.pos ++ es.map Event.pos).Nodup

theorem Turns.apart (h : Turns b c e) (hapart : b.Apart (e :: es)) : c.Apart es := by
  unfold Apart at hapart ⊢
  rw [List.map_cons, List.nodup_middle, List.nodup_cons] at hapart
  obtain ⟨he, hrest⟩ := hapart
  cases h with
  | opens hheader htags =>
    rw [htags]
    exact List.nodup_cons.mpr ⟨he, hrest⟩
  | closes pos htags =>
    rw [htags] at hrest
    exact (List.nodup_cons.mp hrest).2
  | stays hclosing htags => rwa [htags]

/-- A tag that is open in the end is open now or will be opened. -/
theorem open_or_opened (h : b.addAll es = .ok c) {t : Tag} (ht : t ∈ c.tags) :
    t ∈ b.tags ∨ .opening t ∈ es := by
  obtain ⟨new, kept, htags, hkept, hnew⟩ := addAll_tags h
  rw [htags] at ht
  rcases List.mem_append.mp ht with ht | ht
  · exact .inr (hnew.subset (List.mem_map.mpr ⟨t, List.mem_reverse.mpr ht, rfl⟩))
  · exact .inl (hkept.subset ht)

/-- A tag at the place of an event that stays open is opened by it, and no tag around it is closed
    any more. -/
theorem Turns.stays_open {last : Builder} (h : Turns b c e) (hapart : b.Apart (e :: es))
    (hrest : c.addAll es = .ok last) {t : Tag} (ht : t ∈ last.tags) (hpos : t.pos = e.pos) :
    e = .opening t ∧ isHeader t.name = false ∧ c.tags = t :: b.tags ∧ ∀ s ∈ b.tags, s ∈ last.tags := by
  unfold Apart at hapart
  rw [List.map_cons, List.nodup_middle, List.nodup_cons, List.mem_append, not_or] at hapart
  obtain ⟨⟨hbefore, hlater⟩, -⟩ := hapart
  have hnot : t ∉ b.tags := fun hmem => hbefore (hpos ▸ List.mem_map_of_mem hmem)
  have hnever : .opening t ∉ es := fun hmem =>
    hlater (hpos ▸ List.mem_map_of_mem (f := Event.pos) hmem)
  have hnow : t ∈ c.tags := (open_or_opened hrest ht).resolve_right hnever
  cases h with
  | closes pos htags => exact absurd (htags ▸ List.mem_cons_of_mem _ hnow) hnot
  | stays hclosing htags => exact absurd (htags ▸ hnow) hnot
  | @opens u hheader htags =>
    rw [htags] at hnow
    obtain rfl : t = u := (List.mem_cons.mp hnow).resolve_right hnot
    refine ⟨rfl, hheader, htags, ?_⟩
    obtain ⟨new, kept, hlast, hkept, hnew⟩ := addAll_tags hrest
    have hin : t ∈ kept := by
      rw [hlast] at ht
      refine (List.mem_append.mp ht).resolve_left fun hmem => hnever ?_
      exact hnew.subset (List.mem_map.mpr ⟨t, List.mem_reverse.mpr hmem, rfl⟩)
    rw [htags] at hkept
    rcases List.suffix_cons_iff.mp hkept with rfl | hkept
    · intro s hs
      rw [hlast]
      exact List.mem_append_right _ (List.mem_cons_of_mem t hs)
    · exact absurd (hkept.subset hin) hnot

/-- A tag that is closed is not open in the end. -/
theorem Turns.closed {last : Builder} {top : Tag} (htags : b.tags = top :: c.tags)
    (hapart : b.Apart (e :: es)) (hrest : c.addAll es = .ok last) : top ∉ last.tags := by
  intro hmem
  unfold Apart at hapart
  rw [htags, List.map_cons, List.cons_append, List.nodup_cons, List.mem_append, not_or] at hapart
  obtain ⟨⟨hbelow, hlater⟩, -⟩ := hapart
  rcases open_or_opened hrest hmem with hin | hin
  · exact hbelow (List.mem_map_of_mem hin)
  · exact hlater (List.mem_map.mpr ⟨.opening top, List.mem_cons_of_mem e hin, rfl⟩)

/-! Two builders. -/

/-- One builder keeps content under tags that the other has closed at once. -/
inductive Released (lower : List OpenTag) : Builder → Builder → Prop where
  | intro (upper : List OpenTag) (roots : List Node) (cms : Option CmsHeader)
    (platform : Option PlatformHeader) (started : Bool) :
    Released lower ⟨upper ++ lower, roots, cms, platform, started⟩
      ⟨upper, roots ++ hoist lower [], cms, platform, started⟩

namespace Released
variable {lower : List OpenTag} {b c b' c' : Builder} {e : Event}

theorem tags (h : Released lower b b') : b.tags = b'.tags ++ lower.map OpenTag.tag := by
  cases h
  exact List.map_append

theorem start (h : Released lower b b') : Released lower b.start b'.start := by
  cases h
  exact .intro _ _ _ _ _

/-- Content under a tag that stays open stands behind it in the end. -/
theorem hoist_push (top : OpenTag) (outer : List OpenTag) (n : Node) :
    hoist ({ top with children := top.children ++ [n] } :: outer) [] =
      hoist (top :: outer) [] ++ [n] := by
  simp [hoist_eq]

theorem push (h : Released lower b b') (n : Node) :
    ∃ lower', lower'.map OpenTag.tag = lower.map OpenTag.tag ∧
      Released lower' (b.push n) (b'.push n) := by
  obtain ⟨upper, roots, cms, platform, started⟩ := h
  cases upper with
  | cons top upper => exact ⟨lower, rfl, .intro (_ :: upper) _ _ _ _⟩
  | nil =>
    cases lower with
    | nil =>
      have hsame : Released [] ⟨[], roots ++ [n], cms, platform, started⟩ _ := .intro [] _ _ _ _
      refine ⟨[], rfl, ?_⟩
      simpa [Builder.push, hoist] using hsame
    | cons top outer =>
      let top' : OpenTag := { top with children := top.children ++ [n] }
      have hbehind : Released (top' :: outer) ⟨top' :: outer, roots, cms, platform, started⟩ _ :=
        .intro [] _ _ _ _
      rw [hoist_push, ← List.append_assoc] at hbehind
      exact ⟨top' :: outer, rfl, hbehind⟩

/-- What one builder can add, the other can, unless it closes a tag that the other does not have. -/
theorem add (h : Released lower b b') (hadd : b.add e = .ok c)
    (hclosing : e.isClosing = true → b'.tags ≠ []) :
    ∃ lower' c', lower'.map OpenTag.tag = lower.map OpenTag.tag ∧ b'.add e = .ok c' ∧
      Released lower' c c' := by
  cases adds_of_add hadd with
  | text v p =>
    obtain ⟨lower', htags, hpush⟩ : ∃ lower', lower'.map OpenTag.tag = lower.map OpenTag.tag ∧
        Released lower' ((if isBlank v then b else b.start).push (.text v p))
          ((if isBlank v then b' else b'.start).push (.text v p)) := by
      split
      · exact h.push _
      · exact h.start.push _
    exact ⟨lower', _, htags, rfl, hpush⟩
  | comment v p =>
    obtain ⟨lower', htags, hpush⟩ := h.push (.comment v p)
    exact ⟨lower', _, htags, rfl, hpush⟩
  | interpolation i =>
    obtain ⟨lower', htags, hpush⟩ := h.start.push (.interpolation i)
    exact ⟨lower', _, htags, rfl, hpush⟩
  | @selfClosing t hheader =>
    obtain ⟨lower', htags, hpush⟩ := h.start.push (.tag t [])
    exact ⟨lower', _, htags, add_selfClosing hheader, hpush⟩
  | @opening t hheader hdepth =>
    obtain ⟨upper, roots, cms, platform, started⟩ := h
    refine ⟨lower, _, rfl, ?_, .intro (⟨t, []⟩ :: upper) roots cms platform true⟩
    rw [add_opening hheader]
    apply if_neg
    simp only [List.length_append] at hdepth
    show ¬ maxOpenTags ≤ upper.length
    omega
  | cms he hname hfront hself hfirst =>
    -- a header stands outside all tags, where the two builders are one
    obtain ⟨upper, roots, cms, platform, started⟩ := h
    obtain ⟨rfl, rfl⟩ := List.append_eq_nil_iff.mp hfront.2
    refine ⟨[], _, rfl, ?_, .intro [] roots _ platform started⟩
    rw [hoist, List.append_nil]
    exact hadd
  | platform he hname hfront hself hfirst =>
    obtain ⟨upper, roots, cms, platform, started⟩ := h
    obtain ⟨rfl, rfl⟩ := List.append_eq_nil_iff.mp hfront.2
    refine ⟨[], _, rfl, ?_, .intro [] roots cms _ started⟩
    rw [hoist, List.append_nil]
    exact hadd
  | @closing top outer hstack pos =>
    obtain ⟨upper, roots, cms, platform, started⟩ := h
    cases upper with
    | nil => exact absurd rfl (hclosing rfl)
    | cons top' upper =>
      obtain ⟨rfl, rfl⟩ := List.cons.inj hstack
      have hrest : Released lower _ _ := .intro upper roots cms platform started
      obtain ⟨lower', htags, hpush⟩ := hrest.push (.tag top'.tag top'.children)
      exact ⟨lower', _, htags, if_pos rfl, hpush⟩

/-- A tag that stays open is closed at once by the other builder. -/
theorem close (h : Released lower b b') (htags : b'.tags = []) {t : Tag}
    (hheader : isHeader t.name = false) (hadd : b.add (.opening t) = .ok c) (pos : Position) :
    ∃ c', b'.addAll [.opening t, .closing t.name pos] = .ok c' ∧
      Released (⟨t, []⟩ :: lower) c c' := by
  obtain ⟨upper, roots, cms, platform, started⟩ := h
  obtain rfl : upper = [] := List.map_eq_nil_iff.mp htags
  have hopened : c = ⟨⟨t, []⟩ :: lower, roots, cms, platform, true⟩ := by
    rw [add_opening hheader, Builder.opening] at hadd
    split at hadd <;> cases hadd
    rfl
  have hhoist : hoist (⟨t, []⟩ :: lower) [] = hoist lower [] ++ [.tag t []] := by
    simp [hoist_eq]
  have hbehind : Released (⟨t, []⟩ :: lower) ⟨⟨t, []⟩ :: lower, roots, cms, platform, true⟩ _ :=
    .intro [] _ _ _ _
  rw [hhoist, ← List.append_assoc] at hbehind
  refine ⟨_, ?_, hopened ▸ hbehind⟩
  rw [addAll, add_opening hheader]
  show addAll _ [.closing t.name pos] = _
  rw [addAll_single, Builder.add, Builder.closing]
  exact if_pos rfl

theorem finish (h : Released lower b b') (hnone : b'.tags = []) :
    b'.finish = ⟨⟨b.cms, b.platform, []⟩, b.finish.children⟩ := by
  obtain ⟨upper, roots, cms, platform, started⟩ := h
  obtain rfl : upper = [] := List.map_eq_nil_iff.mp hnone
  simp [Builder.finish, hoist]

/-- The tags that the other builder has open behind an event. -/
theorem turns (h : Released lower b b') {lower' : List OpenTag} (h' : Released lower' c c')
    (hlower : lower'.map OpenTag.tag = lower.map OpenTag.tag) (hturns : Turns b c e) :
    Turns b' c' e := by
  have hb := h.tags
  have hc := h'.tags
  rw [hlower] at hc
  cases hturns with
  | opens hheader htags =>
    refine .opens hheader ?_
    rw [hc, hb, ← List.cons_append] at htags
    exact List.append_cancel_right htags
  | closes pos htags =>
    refine .closes pos ?_
    rw [hc, hb, ← List.cons_append] at htags
    exact List.append_cancel_right htags
  | stays hclosing htags =>
    refine .stays hclosing ?_
    rw [hc, hb] at htags
    exact List.append_cancel_right htags

end Released
end Builder

/-- The event, and behind it a closing tag when it opens a tag that is listed. -/
def Event.closeAtOnce (unclosed : List UnclosedTag) (place : UnclosedTag → Position) (e : Event) :
    List Event :=
  match unclosed.find? (fun u => u.pos = e.pos) with
  | some u => [e, .closing u.name (place u)]
  | none => [e]

namespace Builder

/-- The tags that are open, as a document lists them. -/
def unclosed (b : Builder) : List UnclosedTag := b.tags.reverse.map fun t => ⟨t.name, t.pos⟩

/-- The tags that stay open to the end are those that the other builder does not have open. -/
structure Parted (last : Builder) (lower : List OpenTag) (b b' : Builder) : Prop where
  released : Released lower b b'
  upper : ∀ t ∈ b'.tags, t ∉ last.tags
  lower : ∀ t ∈ lower.map OpenTag.tag, t ∈ last.tags

namespace Parted
variable {last b b' c : Builder} {lower : List OpenTag} {e : Event} {es : List Event}

theorem tags_eq_nil (h : Parted last lower b b') (hstay : ∀ t ∈ b.tags, t ∈ last.tags) :
    b'.tags = [] := by
  refine List.eq_nil_iff_forall_not_mem.mpr fun t ht => h.upper t ht (hstay t ?_)
  rw [h.released.tags]
  exact List.mem_append_left _ ht

/-- An event that opens a tag that stays open comes with a closing tag for the other builder. -/
theorem close (h : Parted last lower b b') (hadd : b.add e = .ok c) (hrest : c.addAll es = .ok last)
    (hapart : b.Apart (e :: es)) {t : Tag} (ht : t ∈ last.tags) (hpos : t.pos = e.pos)
    (place : Position) :
    ∃ c' lower', b'.addAll [e, .closing t.name place] = .ok c' ∧ Parted last lower' c c' := by
  obtain ⟨rfl, hheader, htags, hstay⟩ := (add_turns hadd).stays_open hapart hrest ht hpos
  have hnone : b'.tags = [] := h.tags_eq_nil hstay
  obtain ⟨c', hclosed, hc⟩ := h.released.close hnone hheader hadd place
  have hnone' : c'.tags = [] := by
    have heq := hc.tags
    rw [htags, h.released.tags, hnone, List.nil_append, List.map_cons] at heq
    exact List.self_eq_append_left.mp heq
  exact ⟨c', _, hclosed, hc, by simp [hnone'], List.forall_mem_cons.mpr ⟨ht, h.lower⟩⟩

/-- Any other event both builders add alone. -/
theorem add (h : Parted last lower b b') (hadd : b.add e = .ok c) (hrest : c.addAll es = .ok last)
    (hapart : b.Apart (e :: es)) (hother : ∀ t ∈ last.tags, t.pos ≠ e.pos) :
    ∃ c' lower', b'.addAll [e] = .ok c' ∧ Parted last lower' c c' := by
  have hturns := add_turns hadd
  have hclosing : e.isClosing = true → b'.tags ≠ [] := by
    -- otherwise the event would close a tag that stays open
    intro hclosing hnone
    cases hturns with
    | opens | stays => simp_all [Event.isClosing]
    | closes pos htags =>
      refine Turns.closed htags hapart hrest (h.lower _ ?_)
      have hmem := htags ▸ List.mem_cons_self
      rwa [h.released.tags, hnone] at hmem
  obtain ⟨lower', c', hsame, hadd', hc⟩ := h.released.add hadd hclosing
  refine ⟨c', lower', by rw [addAll_single, hadd'], hc, ?_, hsame ▸ h.lower⟩
  have hupper := h.upper
  cases h.released.turns hc hsame hturns with
  | @opens u hheader htags =>
    rw [htags]
    exact List.forall_mem_cons.mpr ⟨fun hu => hother u hu rfl, hupper⟩
  | closes pos htags =>
    rw [htags] at hupper
    exact fun t ht => hupper t (List.mem_cons_of_mem _ ht)
  | stays hopens htags => rwa [htags]

theorem step (place : UnclosedTag → Position) (h : Parted last lower b b') (hadd : b.add e = .ok c)
    (hrest : c.addAll es = .ok last) (hapart : b.Apart (e :: es)) :
    ∃ c' lower', b'.addAll (e.closeAtOnce last.unclosed place) = .ok c' ∧
      Parted last lower' c c' := by
  rw [Event.closeAtOnce]
  split
  · rename_i u hfound
    obtain ⟨t, ht, rfl⟩ := List.mem_map.mp (List.mem_of_find?_eq_some hfound)
    have hpos : t.pos = e.pos := by simpa using List.find?_some hfound
    exact h.close hadd hrest hapart (List.mem_reverse.mp ht) hpos _
  · rename_i hnot
    refine h.add hadd hrest hapart fun t ht hpos => ?_
    have hlisted : (⟨t.name, t.pos⟩ : UnclosedTag) ∈ last.unclosed :=
      List.mem_map.mpr ⟨t, List.mem_reverse.mpr ht, rfl⟩
    exact List.find?_eq_none.mp hnot _ hlisted (by simpa using hpos)

/-- The other builder closes the tags that stay open as soon as they are opened, and ends where it
    has no tag open. -/
theorem run (place : UnclosedTag → Position) (h : Parted last lower b b')
    (hrun : b.addAll es = .ok last) (hapart : b.Apart es) :
    ∃ last' lower', b'.addAll (es.flatMap (Event.closeAtOnce last.unclosed place)) = .ok last' ∧
      Released lower' last last' ∧ last'.tags = [] := by
  induction es generalizing b b' lower with
  | nil =>
    cases hrun
    exact ⟨b', lower, rfl, h.released, h.tags_eq_nil fun _ ht => ht⟩
  | cons e es ih =>
    rw [addAll] at hrun
    split at hrun
    · rename_i c hadd
      obtain ⟨c', lower', hstep, hc⟩ := h.step place hadd hrun hapart
      obtain ⟨last', lower', hlast, hend⟩ := ih hc hrun ((add_turns hadd).apart hapart)
      refine ⟨last', lower', ?_, hend⟩
      rw [List.flatMap_cons, addAll_append, hstep]
      exact hlast
    · cases hrun

end Parted

/-- The document of the other builder has the same content and lists no unclosed tag. -/
theorem addAll_closeAtOnce {b : Builder} {es : List Event} (place : UnclosedTag → Position)
    (h : empty.addAll es = .ok b) (hplaces : (es.map Event.pos).Nodup) :
    ∃ b', empty.addAll (es.flatMap (Event.closeAtOnce b.unclosed place)) = .ok b' ∧
      b'.finish = ⟨⟨b.cms, b.platform, []⟩, b.finish.children⟩ := by
  have hsame : Parted b [] empty empty :=
    ⟨.intro [] [] none none false, List.forall_mem_nil _, List.forall_mem_nil _⟩
  obtain ⟨b', lower, hrun, hend, hnone⟩ := hsame.run place h hplaces
  exact ⟨b', hrun, hend.finish hnone⟩

theorem finish_unclosed (b : Builder) : b.finish.preamble.unclosed = b.unclosed := by
  simp [finish, unclosed, tags, List.map_reverse]

/-- An unclosed tag is a child of the document and has no content. -/
theorem unclosed_child {b : Builder} {u : UnclosedTag} (hu : u ∈ b.unclosed) :
    ∃ t ∈ b.tags, t.name = u.name ∧ t.pos = u.pos ∧ .tag t [] ∈ b.finish.children := by
  obtain ⟨t, ht, rfl⟩ := List.mem_map.mp hu
  obtain ⟨o, ho, rfl⟩ := List.mem_map.mp (List.mem_reverse.mp ht)
  refine ⟨o.tag, List.mem_reverse.mp ht, rfl, rfl, List.mem_append_right _ ?_⟩
  rw [hoist_eq, List.append_nil]
  exact List.mem_flatMap.mpr ⟨o, List.mem_reverse.mpr ho, List.mem_cons_self⟩

/-- Unclosed tags are listed in the order of their events. -/
theorem unclosed_places {b : Builder} {es : List Event} (h : empty.addAll es = .ok b) :
    (b.unclosed.map UnclosedTag.pos).Sublist (es.map Event.pos) := by
  obtain ⟨new, kept, htags, hkept, hnew⟩ := addAll_tags h
  obtain rfl : kept = [] := List.suffix_nil.mp hkept
  have hplaces := hnew.map Event.pos
  rw [List.append_nil] at htags
  rw [unclosed, htags]
  simpa [List.map_map, Function.comp_def, Event.pos] using hplaces

end Builder

/-! Tokens. -/

namespace Token

/-- The symbols of a closing tag. -/
def closingSymbols (name : String) : List Symbol :=
  [(.leftBrace, .none), (.slash, .none), (.ident, .str name), (.rightBrace, .none)]

/-- Where tokens start. -/
def place : List Token → Position
  | [] => Position.start
  | t :: _ => t.pos

/-- The tokens with further ones directly behind each tag that is listed. -/
def closeAtOnce (unclosed : List UnclosedTag) (marks : UnclosedTag → List Token) (toks : List Token) :
    List Token :=
  (pieces toks).flatMap fun piece =>
    match unclosed.find? (fun u => piece.head?.map pos = some u.pos) with
    | some u => piece ++ marks u
    | none => piece

theorem mem_closeAtOnce {unclosed : List UnclosedTag} {marks : UnclosedTag → List Token}
    {toks : List Token} {t : Token} (h : t ∈ closeAtOnce unclosed marks toks) :
    t ∈ toks ∨ ∃ u ∈ unclosed, t ∈ marks u := by
  obtain ⟨piece, hpiece, ht⟩ := List.mem_flatMap.mp h
  have hin : t ∈ piece → t ∈ toks := by
    intro hmem
    rw [← flatten_piecesFrom 0 toks]
    exact List.mem_flatten.mpr ⟨piece, hpiece, hmem⟩
  split at ht
  · rename_i u hfound
    rcases List.mem_append.mp ht with ht | ht
    · exact .inl (hin ht)
    · exact .inr ⟨u, List.mem_of_find?_eq_some hfound, ht⟩
  · exact .inl (hin ht)

end Token

namespace Event

theorem writes_closing {ts : List Token} {name : String}
    (h : ts.map Token.symbol = Token.closingSymbols name) :
    Writes ts [.closing name (Token.place ts)] := by
  obtain ⟨brace, _, rfl, hbrace, h⟩ := List.map_eq_cons_iff.mp h
  obtain ⟨slash, _, rfl, hslash, h⟩ := List.map_eq_cons_iff.mp h
  obtain ⟨word, _, rfl, hname, h⟩ := List.map_eq_cons_iff.mp h
  obtain ⟨close, _, rfl, hclose, h⟩ := List.map_eq_cons_iff.mp h
  obtain rfl := List.map_eq_nil_iff.mp h
  have hwrites := Writes.cons (.closing hbrace hslash hname hclose) .nil
  rwa [List.append_nil] at hwrites

/-- With closing tags put behind tags, the tokens are the events with closing tags put there. -/
theorem Writes.closeAtOnce {toks : List Token} {es : List Event} (h : Writes toks es)
    {unclosed : List UnclosedTag} {marks : UnclosedTag → List Token}
    (hmarks : ∀ u ∈ unclosed, (marks u).map Token.symbol = Token.closingSymbols u.name) :
    Writes (Token.closeAtOnce unclosed marks toks)
      (es.flatMap (Event.closeAtOnce unclosed fun u => Token.place (marks u))) := by
  rw [writes_iff_pieces] at h
  unfold Token.closeAtOnce
  generalize Token.pieces toks = pieces at h ⊢
  induction h with
  | nil => exact .nil
  | @cons piece e pieces es h hrest ih =>
    rw [List.flatMap_cons, List.flatMap_cons]
    refine Writes.append ?_ ih
    have hone : Writes piece [e] := by
      have hwrites := Writes.cons h .nil
      rwa [List.append_nil] at hwrites
    have hfind : ∀ u : UnclosedTag, decide (piece.head?.map Token.pos = some u.pos) =
        decide (u.pos = e.pos) := by
      intro u
      apply decide_eq_decide.mpr
      rw [h.head_pos, Option.some.injEq, eq_comm]
    simp only [hfind, Event.closeAtOnce]
    split
    · rename_i u hfound
      exact hone.append (writes_closing (hmarks u (List.mem_of_find?_eq_some hfound)))
    · exact hone

end Event

/-! Documents. -/

namespace Document
variable {source : String} {toks : List Token} {eof : Token} {d : Document}
  {marks : UnclosedTag → List Token}

/-- Leaving a tag unclosed is the same as closing it at once: with the tokens of a closing tag
    directly behind each tag that is listed as unclosed, the tokens of a source give a document with
    the same content and the same headers, and nothing unclosed. The unclosed tags are children of
    the document without content, and are listed in the order of their places. -/
theorem ofTokens_closeAtOnce (htoks : tokenize source = .ok (toks ++ [eof]))
    (hd : ofTokens (toks ++ [eof]) = .ok d)
    (hmarks : ∀ u ∈ d.preamble.unclosed, (marks u).map Token.symbol = Token.closingSymbols u.name) :
    ofTokens (Token.closeAtOnce d.preamble.unclosed marks toks ++ [eof]) =
        .ok ⟨{ d.preamble with unclosed := [] }, d.children⟩ ∧
      (∀ u ∈ d.preamble.unclosed, ∃ t : Tag, t.name = u.name ∧ t.pos = u.pos ∧
        t.selfClosing = false ∧ .tag t [] ∈ d.children) ∧
      (d.preamble.unclosed.map UnclosedTag.pos).Pairwise (·.offset < ·.offset) := by
  obtain ⟨init, heq, hcuts⟩ := Lexer.tokenize_cuts htoks
  obtain ⟨rfl, heof⟩ := List.append_inj' heq rfl
  have heof : eof.kind = .eof := by rw [List.singleton_inj.mp heof]
  obtain ⟨es, b, hall, hbuilt, rfl⟩ := ofTokens_events hcuts.ne_eof heof hd
  have hwritten : Event.Writes toks es := Event.writes_of_all hcuts.sound hall
  have hbehind : (es.map Event.pos).Pairwise (·.offset < ·.offset) :=
    hcuts.behind.sublist hwritten.starts
  have hopened := (Builder.Follows.empty.addAll hwritten.consistent hbuilt).opened
  rw [Builder.finish_unclosed] at hmarks ⊢
  refine ⟨?_, ?_, hbehind.sublist (Builder.unclosed_places hbuilt)⟩
  · have hclosed := hwritten.closeAtOnce hmarks
    obtain ⟨b', hbuilt', hfinish⟩ :=
      Builder.addAll_closeAtOnce (fun u => Token.place (marks u)) hbuilt
        (Position.nodup_of_offsets hbehind)
    have hends : ∀ t ∈ Token.closeAtOnce b.unclosed marks toks, t.kind ≠ .eof := by
      intro t ht
      rcases Token.mem_closeAtOnce ht with ht | ⟨u, hu, ht⟩
      · exact hcuts.ne_eof t ht
      · have hsymbol : t.symbol ∈ Token.closingSymbols u.name :=
          hmarks u hu ▸ List.mem_map_of_mem ht
        intro hkind
        simp [Token.closingSymbols, Token.symbol, hkind] at hsymbol
    rw [ofTokens_append hends heof, hclosed.all eof]
    simp only [hbuilt', hfinish]
    rfl
  · intro u hu
    obtain ⟨t, ht, hname, hpos, hchild⟩ := Builder.unclosed_child hu
    obtain ⟨o, ho, rfl⟩ := List.mem_map.mp ht
    exact ⟨o.tag, hname, hpos, hopened o ho, hchild⟩

/-- Two tags that stay open, and a closed one in the inner of them. -/
theorem ofTokens_closeAtOnce_nested :
    ∃ toks eof d, tokenize "\x7ba\x7dt\x7bb\x7d\x7bc\x7du\x7b/c\x7d" = .ok (toks ++ [eof]) ∧
      ofTokens (toks ++ [eof]) = .ok d ∧ d.preamble.unclosed.length = 2 ∧
      ofTokens (Token.closeAtOnce d.preamble.unclosed (fun u => [⟨.leftBrace, .none, u.pos⟩,
          ⟨.slash, .none, u.pos⟩, ⟨.ident, .str u.name, u.pos⟩, ⟨.rightBrace, .none, u.pos⟩]) toks ++
          [eof]) = .ok ⟨{ d.preamble with unclosed := [] }, d.children⟩ ∧
      (∀ u ∈ d.preamble.unclosed, ∃ t : Tag, t.name = u.name ∧ t.pos = u.pos ∧
        t.selfClosing = false ∧ .tag t [] ∈ d.children) ∧
      (d.preamble.unclosed.map UnclosedTag.pos).Pairwise (·.offset < ·.offset) := by
  have htoks : tokenize "\x7ba\x7dt\x7bb\x7d\x7bc\x7du\x7b/c\x7d" =
      .ok ([⟨.leftBrace, .none, ⟨1, 1, 0⟩⟩, ⟨.ident, .str "a", ⟨1, 2, 1⟩⟩, ⟨.rightBrace, .none, ⟨1, 3, 2⟩⟩,
        ⟨.text, .str "t", ⟨1, 4, 3⟩⟩, ⟨.leftBrace, .none, ⟨1, 5, 4⟩⟩, ⟨.ident, .str "b", ⟨1, 6, 5⟩⟩,
        ⟨.rightBrace, .none, ⟨1, 7, 6⟩⟩, ⟨.leftBrace, .none, ⟨1, 8, 7⟩⟩, ⟨.ident, .str "c", ⟨1, 9, 8⟩⟩,
        ⟨.rightBrace, .none, ⟨1, 10, 9⟩⟩, ⟨.text, .str "u", ⟨1, 11, 10⟩⟩,
        ⟨.leftBrace, .none, ⟨1, 12, 11⟩⟩, ⟨.slash, .none, ⟨1, 13, 12⟩⟩, ⟨.ident, .str "c", ⟨1, 14, 13⟩⟩,
        ⟨.rightBrace, .none, ⟨1, 15, 14⟩⟩] ++ [⟨.eof, .none, ⟨1, 16, 15⟩⟩]) := by decide +kernel
  have hparse := parse_of_events htoks (by simp) rfl (by decide +kernel : _ =
    ([.opening ⟨"a", [], false, ⟨1, 1, 0⟩⟩, .text "t" ⟨1, 4, 3⟩, .opening ⟨"b", [], false, ⟨1, 5, 4⟩⟩,
      .opening ⟨"c", [], false, ⟨1, 8, 7⟩⟩, .text "u" ⟨1, 11, 10⟩, .closing "c" ⟨1, 12, 11⟩], none)) rfl
  obtain ⟨all, hall, hd⟩ := parse_tokens hparse
  obtain rfl := Except.ok.inj (htoks.symm.trans hall)
  exact ⟨_, _, _, htoks, hd, rfl, ofTokens_closeAtOnce htoks hd fun u _ => rfl⟩

end Document
end BraceTemplate
