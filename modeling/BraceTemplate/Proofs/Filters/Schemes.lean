import Mathlib.Data.List.Infix
import Mathlib.Data.List.TakeWhile
import BraceTemplate.Formats.Standard
import BraceTemplate.Proofs.Filters.Entities
import BraceTemplate.Proofs.Text

/- Schemes of addresses. The scheme of an address is what a text has in front of its first colon,
   behind control characters and blanks and without tabs and line ends (`Url.Names`). The filter for
   addresses decides by one reading, but what it puts out is read again. An address that it lets
   through is written with its own scheme, and in a relative address the encoding of blanks makes no
   scheme (`Url.Names.of_encodeBlank`): it neither opens a way past the controls in front nor joins
   letters to a colon. So with a reader that goes by schemes (`Url.FollowsSchemes`) no other scheme
   than the safe ones is ever read again (`Builtin.escUrl_safe`). The reader that the program runs
   with goes by schemes (`Url.followsSchemes_address`). -/
namespace BraceTemplate

namespace Url

/-! What an address begins with. -/

/-- A letter, and behind it letters, digits and three marks. -/
structure IsScheme (name : List Char) : Prop where
  letter : ∃ c rest, name = c :: rest ∧ c.isAlpha = true
  chars : ∀ c ∈ name, isSchemeChar c = true

/-- The text behind control characters and blanks, without tabs and line ends. -/
def lead (text : List Char) : List Char :=
  (text.dropWhile fun c => c.toNat ≤ 32).filter (!isIgnored ·)

/-- The text begins with a scheme and a colon; letters of the scheme may be large ones. -/
def Names (text scheme : List Char) : Prop :=
  ∃ name, IsScheme name ∧ name.map Char.toLower = scheme ∧ name ++ [':'] <+: lead text

/-! Characters of schemes. -/

section
variable {c : Char} (h : isSchemeChar c = true)
include h

theorem isSchemeChar_codes : 32 < c.toNat ∧ c ≠ '%' := by
  simp only [isSchemeChar, Bool.or_eq_true, decide_eq_true_eq] at h
  rcases h with ((halphanum | rfl) | rfl) | rfl
  · have hcodes := Text.alphanum_codes halphanum
    refine ⟨by omega, ?_⟩
    rintro rfl
    cases halphanum
  all_goals decide

theorem isIgnored_of_isSchemeChar : isIgnored c = false := by
  have hcode := (isSchemeChar_codes h).1
  simp only [isIgnored, Bool.or_eq_false_iff, decide_eq_false_iff_not]
  refine ⟨⟨?_, ?_⟩, ?_⟩ <;> rintro rfl <;> exact absurd hcode (by decide)

theorem isSchemeChar_toLower : isSchemeChar c.toLower = true := by
  simp only [isSchemeChar, Char.isAlphanum, Bool.or_eq_true, decide_eq_true_eq] at h
  rcases h with (((halpha | hdigit) | rfl) | rfl) | rfl
  · simp [isSchemeChar, Char.isAlphanum, Text.isAlpha_toLower halpha]
  · simp [isSchemeChar, Char.isAlphanum, Text.toLower_of_isDigit hdigit, hdigit]
  all_goals decide

end

theorem IsScheme.lower {name : List Char} (h : IsScheme name) : IsScheme (name.map Char.toLower) := by
  obtain ⟨⟨c, rest, rfl, hc⟩, hchars⟩ := h
  refine ⟨⟨_, _, rfl, Text.isAlpha_toLower hc⟩, List.forall_mem_map.mpr fun d hd => ?_⟩
  exact isSchemeChar_toLower (hchars d hd)

theorem lead_cons_of_edge {c : Char} (h : c.toNat ≤ 32) (text : List Char) : lead (c :: text) = lead text := by
  rw [lead, List.dropWhile_cons_of_pos (by simpa using h)]
  rfl

theorem lead_cons {c : Char} (h : 32 < c.toNat) (text : List Char) :
    lead (c :: text) = (c :: text).filter (!isIgnored ·) := by
  rw [lead, List.dropWhile_cons_of_neg (by simpa using h)]

/-- A scheme in front of a text is kept. -/
theorem lead_scheme {name : List Char} (h : IsScheme name) (rest : List Char) :
    lead (name ++ rest) = name ++ rest.filter (!isIgnored ·) := by
  obtain ⟨⟨c, tail, rfl, -⟩, hchars⟩ := h
  rw [List.cons_append, lead_cons (isSchemeChar_codes (hchars c List.mem_cons_self)).1,
    ← List.cons_append, List.filter_append, List.filter_eq_self.mpr]
  intro d hd
  rw [isIgnored_of_isSchemeChar (hchars d hd)]
  rfl

/-! Splitting. -/

theorem splitScheme?_eq_some {text scheme after : List Char} :
    splitScheme? text = some (scheme, after) ↔
      ∃ name, IsScheme name ∧ name.map Char.toLower = scheme ∧ text = name ++ ':' :: after := by
  constructor
  · intro h
    unfold splitScheme? at h
    split at h
    · rename_i c rest after' htake hdrop
      rw [Option.ite_none_right_eq_some] at h
      obtain ⟨halpha, heq⟩ := h
      cases heq
      refine ⟨c :: rest, ⟨⟨c, rest, rfl, halpha⟩, fun d hd => ?_⟩, rfl, ?_⟩
      · rw [← htake] at hd
        exact List.mem_takeWhile_imp hd
      · rw [← htake, ← hdrop, List.takeWhile_append_dropWhile]
    · cases h
  · rintro ⟨name, ⟨⟨c, rest, rfl, halpha⟩, hchars⟩, rfl, rfl⟩
    unfold splitScheme?
    rw [List.takeWhile_append_of_pos hchars, List.dropWhile_append_of_pos hchars,
      List.takeWhile_cons_of_neg (by decide), List.dropWhile_cons_of_neg (by decide), List.append_nil]
    simp only [halpha, if_true]

/-- Cleaning only drops control characters and blanks behind the text as well. -/
theorem lead_eq_clean (text : List Char) :
    ∃ tail, lead text = clean text ++ tail ∧ ∀ c ∈ tail, c.toNat ≤ 32 := by
  let edge (c : Char) : Bool := c.toNat ≤ 32
  have hcut : text.dropWhile edge = (((text.dropWhile edge).reverse.dropWhile edge).reverse) ++
      ((text.dropWhile edge).reverse.takeWhile edge).reverse := by
    rw [← List.reverse_append, List.takeWhile_append_dropWhile, List.reverse_reverse]
  refine ⟨((text.dropWhile edge).reverse.takeWhile edge).reverse.filter (!isIgnored ·), ?_, fun c hc => ?_⟩
  · unfold clean lead
    rw [← List.filter_append]
    exact congrArg _ hcut
  · have hedge := List.mem_takeWhile_imp (List.mem_reverse.mp (List.mem_filter.mp hc).1)
    exact of_decide_eq_true hedge

/-- A clean text begins with a colon behind a name just when the text does. -/
theorem prefix_clean {name text : List Char} : name ++ [':'] <+: clean text ↔ name ++ [':'] <+: lead text := by
  obtain ⟨tail, hlead, htail⟩ := lead_eq_clean text
  rw [hlead]
  refine ⟨fun h => h.trans (List.prefix_append _ _), fun h => ?_⟩
  rcases List.prefix_or_prefix_of_prefix h (List.prefix_append _ _) with hclean | ⟨more, hmore⟩
  · exact hclean
  · -- what is dropped behind the text cannot hold the colon
    rcases List.eq_nil_or_concat' more with rfl | ⟨front, d, rfl⟩
    · rw [← hmore, List.append_nil]
    · have hbehind : front ++ [d] <+: tail :=
        (List.prefix_append_right_inj (clean text)).mp (hmore.symm ▸ h)
      rw [← List.append_assoc] at hmore
      obtain ⟨-, hcolon⟩ := List.append_inj' hmore rfl
      have hedge : d.toNat ≤ 32 :=
        htail d (hbehind.subset (List.mem_append_right _ List.mem_cons_self))
      rw [(List.cons.inj hcolon).1] at hedge
      exact absurd hedge (by decide)

theorem names_iff {text scheme : List Char} :
    Names text scheme ↔ ∃ after, splitScheme? (clean text) = some (scheme, after) := by
  simp only [splitScheme?_eq_some, Names, ← prefix_clean]
  constructor
  · rintro ⟨name, hname, hscheme, after, hafter⟩
    exact ⟨after, name, hname, hscheme, by rw [← hafter, List.append_assoc, List.singleton_append]⟩
  · rintro ⟨after, name, hname, hscheme, hafter⟩
    exact ⟨name, hname, hscheme, after, by rw [hafter, List.append_assoc, List.singleton_append]⟩

theorem Names.unique {text scheme scheme' : List Char} (h : Names text scheme)
    (h' : Names text scheme') : scheme = scheme' := by
  obtain ⟨after, hsplit⟩ := names_iff.mp h
  obtain ⟨after', hsplit'⟩ := names_iff.mp h'
  rw [hsplit] at hsplit'
  exact (Prod.mk.inj (Option.some.inj hsplit')).1

theorem not_names_nil (scheme : List Char) : ¬ Names [] scheme := by
  rintro ⟨name, -, -, hprefix⟩
  exact absurd (List.prefix_nil.mp hprefix) (by simp)

/-- A text that begins with the scheme of another text names that scheme as well. -/
theorem Names.written {text scheme written : List Char} (h : Names text scheme)
    (hwritten : scheme ++ [':'] <+: written) : Names written scheme := by
  obtain ⟨name, hname, hscheme, -⟩ := h
  have hlower : IsScheme scheme := hscheme ▸ hname.lower
  obtain ⟨rest, rfl⟩ := hwritten
  refine ⟨scheme, hlower, ?_, ?_⟩
  · rw [← hscheme, List.map_map]
    exact List.map_congr_left fun c _ => Text.toLower_of_not_isUpper (Text.isUpper_toLower c)
  · rw [List.append_assoc, lead_scheme hlower, List.singleton_append,
      List.filter_cons_of_pos (by decide)]
    exact ⟨_, List.append_cons .. |>.symm⟩

/-! Blanks. -/

/-- In a text whose blanks are encoded, nothing without a percent sign is new. -/
theorem prefix_of_encodeBlank {front text : List Char} (hfront : '%' ∉ front)
    (h : front <+: (text.flatMap Filter.encodeBlank).filter (!isIgnored ·)) :
    front <+: text.filter (!isIgnored ·) := by
  induction text generalizing front with
  | nil => exact h
  | cons c text ih =>
    rw [List.flatMap_cons, Filter.encodeBlank] at h
    cases front with
    | nil => exact List.nil_prefix
    | cons d front =>
      split at h
      · -- an encoded blank begins with a percent sign
        rw [List.cons_append, List.filter_cons_of_pos (by decide), List.cons_prefix_cons] at h
        exact absurd (List.mem_cons.mpr (.inl h.1.symm)) hfront
      · rw [List.singleton_append, List.filter_cons] at h
        rw [List.filter_cons]
        split
        · rename_i hkept
          rw [if_pos hkept, List.cons_prefix_cons] at h
          exact List.cons_prefix_cons.mpr ⟨h.1, ih (fun hmem => hfront (List.mem_cons_of_mem _ hmem)) h.2⟩
        · rename_i hignored
          rw [if_neg hignored] at h
          exact ih hfront h

/-- Encoding blanks makes no scheme. -/
theorem Names.of_encodeBlank {text scheme : List Char}
    (h : Names (text.flatMap Filter.encodeBlank) scheme) : Names text scheme := by
  obtain ⟨name, hname, hscheme, hprefix⟩ := h
  refine ⟨name, hname, hscheme, ?_⟩
  have hpercent : '%' ∉ name ++ [':'] := by
    rw [List.mem_append, not_or]
    exact ⟨fun hmem => (isSchemeChar_codes (hname.chars _ hmem)).2 rfl, by decide⟩
  obtain ⟨⟨letter, rest, hletter, -⟩, -⟩ := hname
  induction text with
  | nil => exact hprefix
  | cons c text ih =>
    rw [List.flatMap_cons, Filter.encodeBlank] at hprefix
    split at hprefix
    · rw [List.cons_append, lead_cons (by decide), List.filter_cons_of_pos (by decide), hletter,
        List.cons_append, List.cons_prefix_cons] at hprefix
      rw [hletter, hprefix.1] at hpercent
      exact absurd List.mem_cons_self hpercent
    · rw [List.singleton_append] at hprefix
      by_cases hedge : c.toNat ≤ 32
      · rw [lead_cons_of_edge hedge] at hprefix ⊢
        exact ih hprefix
      · rename_i hblank
        rw [lead_cons (by omega)] at hprefix ⊢
        refine prefix_of_encodeBlank hpercent ?_
        rw [List.flatMap_cons, Filter.encodeBlank, if_neg hblank, List.singleton_append]
        exact hprefix

/-! Reading. -/

/-- A reader of addresses goes by schemes: an address is relative when its text names no scheme, an
    absolute one has the scheme that its text names, and is written with it. -/
structure FollowsSchemes (read : List Char → WebAddress) : Prop where
  relative : ∀ text, read text = .relative ↔ ∀ scheme, ¬ Names text scheme
  absolute : ∀ text scheme written, read text = .absolute scheme written → Names text scheme
  written : ∀ text scheme written, read text = .absolute scheme written → scheme ++ [':'] <+: written

end Url

open Url (FollowsSchemes)

/-! The filter. -/

/-- What is left of an address is no address of another scheme. -/
theorem Filter.cleanUrl_safe [Formats] (hread : FollowsSchemes Formats.address)
    {text scheme written : List Char}
    (h : Formats.address (cleanUrl text) = .absolute scheme written) :
    String.ofList scheme ∈ safeSchemes := by
  have hnames := hread.absolute _ _ _ h
  unfold cleanUrl at hnames
  simp only at hnames
  split at hnames
  · rename_i scheme' written' habsolute
    split at hnames
    · -- an address that was let through is read with its own scheme again
      rename_i hsafe
      have hagain := (hread.absolute _ _ _ habsolute).written (hread.written _ _ _ habsolute)
      rw [hnames.unique hagain]
      exact List.contains_iff_mem.mp hsafe
    · exact absurd hnames (Url.not_names_nil _)
  · rename_i hrelative
    exact absurd hnames.of_encodeBlank ((hread.relative _).mp hrelative _)
  · exact absurd hnames (Url.not_names_nil _)

/-- What the filter for addresses puts out is, without its entities, never read as an address of a
    scheme other than the four safe ones. Of the reader nothing counts but that it goes by schemes. -/
theorem Builtin.escUrl_safe [Formats] (hread : FollowsSchemes Formats.address) (v : Json.Value)
    (args : List FilterArgument) :
    ∃ text, escUrl.apply v args = .string text ∧
      ∀ scheme written, Formats.address (Markup.decode text.toList) = .absolute scheme written →
        String.ofList scheme ∈ ["http", "https", "mailto", "tel"] := by
  refine ⟨_, rfl, fun scheme written h => ?_⟩
  rw [String.toList_ofList, (Filter.escapeHtml_escaped _).decoded] at h
  exact Filter.cleanUrl_safe hread h

/-! The reader that the program runs with. -/

namespace Url

/-- What is read behind a scheme is an address of this scheme or none. -/
def Reading.Behind (scheme : List Char) : Reading → Prop
  | .absolute url => url.scheme = scheme
  | .relative => False
  | .invalid => True

theorem readAuthority_behind (kind : SchemeKind) (scheme text : List Char) :
    (readAuthority kind scheme text).Behind scheme := by
  unfold readAuthority
  simp only
  split
  · trivial
  · rfl

theorem readFile_behind (scheme text : List Char) : (readFile scheme text).Behind scheme := by
  unfold readFile
  simp only
  split
  · split
    · split
      · rfl
      · split
        · trivial
        · rfl
    · rfl
  · rfl

theorem readOther_behind (scheme text : List Char) : (readOther scheme text).Behind scheme := by
  unfold readOther
  split
  · exact readAuthority_behind .other scheme _
  · rfl

theorem read_behind {text scheme after : List Char}
    (h : splitScheme? (clean text) = some (scheme, after)) : (read text).Behind scheme := by
  rw [read, h]
  simp only
  split
  · exact readFile_behind scheme after
  · exact readAuthority_behind .special scheme _
  · exact readOther_behind scheme after

theorem read_relative (text : List Char) :
    read text = .relative ↔ ∀ scheme, ¬ Names text scheme := by
  simp only [names_iff, not_exists]
  cases h : splitScheme? (clean text) with
  | none => simp [read, h]
  | some split =>
    have hbehind := read_behind h
    refine iff_of_false (fun hrelative => ?_) (fun hnone => hnone split.1 split.2 rfl)
    rw [hrelative] at hbehind
    exact hbehind

theorem read_absolute {text : List Char} {url : Url} (hurl : read text = .absolute url) :
    Names text url.scheme := by
  rw [names_iff]
  cases h : splitScheme? (clean text) with
  | none =>
    rw [read, h] at hurl
    cases hurl
  | some split =>
    have hbehind := read_behind h
    rw [hurl] at hbehind
    exact ⟨split.2, by rw [show url.scheme = split.1 from hbehind]⟩

theorem address_eq_absolute {text scheme written : List Char} :
    address text = .absolute scheme written ↔
      ∃ url, read text = .absolute url ∧ url.scheme = scheme ∧ url.text = written := by
  unfold address
  cases read text <;> simp

theorem address_eq_relative {text : List Char} : address text = .relative ↔ read text = .relative := by
  unfold address
  cases read text <;> simp

theorem followsSchemes_address : FollowsSchemes address where
  relative text := address_eq_relative.trans (read_relative text)
  absolute text scheme written h := by
    obtain ⟨url, hread, rfl, -⟩ := address_eq_absolute.mp h
    exact read_absolute hread
  written text scheme written h := by
    obtain ⟨url, -, rfl, rfl⟩ := address_eq_absolute.mp h
    exact ⟨_, List.append_cons .. |>.symm⟩

end Url

/-- An address with a large scheme is let through, and is read again. -/
theorem Builtin.escUrl_safe_large : FollowsSchemes Formats.address ∧ ∃ text written,
    escUrl.apply (.string " HTTPS://a.b/c d\n") [] = .string text ∧
      Formats.address (Markup.decode text.toList) = .absolute "https".toList written ∧
      String.ofList "https".toList ∈ ["http", "https", "mailto", "tel"] := by
  obtain ⟨text, htext, hsafe⟩ :=
    escUrl_safe Url.followsSchemes_address (.string " HTTPS://a.b/c d\n") []
  have hread : Formats.address (Markup.decode text.toList) =
      .absolute "https".toList "https://a.b/c%20d".toList := by
    cases htext
    rw [String.toList_ofList, (Filter.escapeHtml_escaped _).decoded]
    decide +kernel
  exact ⟨Url.followsSchemes_address, text, _, htext, hread, hsafe _ _ hread⟩

/-- Controls and tabs do not hide a scheme. -/
example : Builtin.escUrl.apply (.string "\x01java\tscript:alert(1)") [] = .string "" := by
  rfl

end BraceTemplate
