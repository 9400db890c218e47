import BraceTemplate.Proofs.Lexing.Lexemes

/- Tokens tile their source. A tile is a token with the characters that it is made of and the
   blanks in front of it. The source of tokens is a row of tiles and blanks at the end
   (`tokenize_tiles`): each token stands at the byte offset of its characters and is spelled by
   them, and the braces that are open say whether it stands in text or in a brace group. -/
namespace BraceTemplate

open Lexer

structure Tile where
  gap : List Char
  lexeme : List Char
  token : Token

/-- How many braces more are open behind a token. -/
def TokenKind.turn : TokenKind → Int
  | .leftBrace => 1
  | .rightBrace => -1
  | _ => 0

/-- The characters spell the symbol. -/
def Symbol.SpelledAs (lexeme : List Char) : Symbol → Prop
  | (.text, .str v) => lexeme = v.toList ∧ '\x7b' ∉ v.toList
  | (.comment, .str v) => lexeme = commentOpen ++ (v.toList ++ ['-', '-', '\x7d']) ∧
      ¬ ['-', '-', '\x7d'] <:+: v.toList
  | (.leftBrace, .none) => lexeme = ['\x7b']
  | (.rightBrace, .none) => lexeme = ['\x7d']
  | (.slash, .none) => lexeme = ['/']
  | (.equal, .none) => lexeme = ['=']
  | (.colon, .none) => lexeme = [':']
  | (.comma, .none) => lexeme = [',']
  | (.pipe, .none) => lexeme = ['|']
  | (.ident, .str v) => lexeme = v.toList
  | (.string, .str v) => ∃ tail, lexeme = '"' :: tail ∧ stringBody 1 tail = .ok (v.toList, tail.length)
  | (.number, p) => classify? lexeme = some (.number, p)
  | (.bool, p) => classify? lexeme = some (.bool, p)
  | (.null, p) => classify? lexeme = some (.null, p)
  | _ => False

namespace Tile

def text (t : Tile) : List Char := t.gap ++ t.lexeme

/-- A tile that starts at a byte offset, where so many braces are open. -/
structure Fits (offset : Nat) (opened : Int) (t : Tile) : Prop where
  placed : t.token.pos.offset = offset + byteLength t.gap
  nonempty : t.lexeme ≠ []
  spelled : t.token.symbol.SpelledAs t.lexeme
  blank : ∀ c ∈ t.gap, Text.isWhitespace c = true
  tight : opened = 0 → t.gap = []
  counted : 0 ≤ opened
  outside : t.token.kind ∈ [.text, .comment] → opened = 0
  inside : t.token.kind ∉ [.text, .comment, .leftBrace] → 1 ≤ opened

/-- Tiles one behind the other and the blanks behind the last one: each fits where it stands,
    and no text stands directly behind a text. -/
def Laid (offset : Nat) (opened : Int) (tiles : List Tile) (last : List Char) : Prop :=
  match tiles with
  | [] => 0 ≤ opened ∧ (∀ c ∈ last, Text.isWhitespace c = true) ∧ (opened = 0 → last = [])
  | t :: rest => t.Fits offset opened ∧
      (t.token.kind = .text → ∀ u ∈ rest.head?, u.token.kind ≠ .text) ∧
      Laid (offset + byteLength t.text) (opened + t.token.kind.turn) rest last

end Tile

namespace Lexer

theorem Lexeme.spelled {b b' : List Bool} {w rest : List Char} {x : Symbol}
    (h : Lexeme b w (some x) b' rest) : x.SpelledAs w := by
  cases h with
  | text hne hrun =>
    rw [Symbol.SpelledAs, String.toList_ofList]
    exact ⟨rfl, hrun⟩
  | comment hbody =>
    rw [Symbol.SpelledAs, String.toList_ofList]
    exact ⟨rfl, hbody⟩
  | brace => rfl
  | mark hc =>
    unfold punctuation? at hc
    split at hc <;> cases hc <;> rfl
  | string htail =>
    have hread := htail 1 []
    rw [List.append_nil] at hread
    exact ⟨_, rfl, by rw [String.toList_ofList]; exact hread⟩
  | word hw =>
    have hmade := hw.made
    rcases classify?_cases hmade with ⟨n, rfl, -⟩ | ⟨y, rfl⟩ | ⟨v, rfl⟩ | rfl | rfl
    · exact hmade
    · exact hmade
    · exact hmade
    · exact hmade
    · exact String.toList_ofList.symm

/-- The braces that are open, counted. -/
theorem Lexeme.turn {b b' : List Bool} {w rest : List Char} {x : Symbol}
    (h : Lexeme b w (some x) b' rest) : (b'.length : Int) = b.length + x.1.turn := by
  cases h with
  | text | comment | brace | string => rfl
  | @mark f outer c kind rest hc =>
    have hkind := punctuation?_sound hc
    simp only [List.mem_cons, List.not_mem_nil, or_false] at hkind
    rcases hkind with rfl | rfl | rfl | rfl | rfl | rfl | rfl <;>
      simp only [bracesAfter, TokenKind.turn, List.length_cons] <;> omega
  | word hw =>
    rcases classify?_cases hw.made with ⟨n, rfl, -⟩ | ⟨y, rfl⟩ | ⟨v, rfl⟩ | rfl | rfl <;>
      simp [TokenKind.turn]

/-- Text stands outside all braces, and all but the first brace of a group inside one. -/
theorem Lexeme.sides {b b' : List Bool} {w rest : List Char} {x : Symbol}
    (h : Lexeme b w (some x) b' rest) :
    (x.1 ∈ [.text, .comment] → b = []) ∧ (x.1 ∉ [.text, .comment, .leftBrace] → b ≠ []) := by
  cases h with
  | text | comment | brace => simp
  | string => simp
  | mark hc =>
    have hkind := punctuation?_sound hc
    simp only [List.mem_cons, List.not_mem_nil, or_false] at hkind
    rcases hkind with rfl | rfl | rfl | rfl | rfl | rfl | rfl <;> simp
  | word hw =>
    rcases classify?_cases hw.made with ⟨n, rfl, -⟩ | ⟨y, rfl⟩ | ⟨v, rfl⟩ | rfl | rfl <;> simp

/-- In front of a brace there begins no text. -/
theorem Cuts.not_text {p : Position} {text : List Char} {toks : List Token} (h : Cuts p [] text toks)
    (hstart : ∀ c ∈ text.head?, c = '\x7b') : ∀ t ∈ toks.head?, t.kind ≠ .text := by
  intro t ht
  cases h with
  | nil => cases ht
  | blank h => cases h
  | @token _ _ _ w rest x toks h hrest =>
    obtain rfl := Option.some.inj ht
    cases h with
    | comment | brace => simp
    | text hne hrun =>
      cases w with
      | nil => exact absurd rfl hne
      | cons c run =>
        have hc : c = '\x7b' := hstart c rfl
        simp [hc] at hrun

/-- Behind a text comes no other one. -/
theorem Lexeme.apart {p : Position} {b b' : List Bool} {w rest : List Char} {x : Symbol}
    {toks : List Token} (h : Lexeme b w (some x) b' rest) (hrest : Cuts p b' rest toks)
    (hkind : x.1 = .text) : ∀ t ∈ toks.head?, t.kind ≠ .text := by
  have hb : b = [] := h.sides.1 (by simp [hkind])
  subst hb
  cases h with
  | comment | brace => cases hkind
  | text hne hrun hbehind => exact hrest.not_text hbehind

/-- What is cut into tokens is laid with tiles. Blanks that were passed belong to the next
    token. -/
theorem Cuts.laid {p : Position} {b : List Bool} {text : List Char} {toks : List Token}
    (h : Cuts p b text toks) (start : Position) (gap : List Char) (hp : p = start.through gap)
    (hblank : ∀ c ∈ gap, Text.isWhitespace c = true) (htight : b = [] → gap = []) :
    ∃ tiles last, toks = tiles.map Tile.token ∧ gap ++ text = tiles.flatMap Tile.text ++ last ∧
      Tile.Laid start.offset b.length tiles last := by
  induction h generalizing start gap with
  | @nil p b =>
    refine ⟨[], gap, rfl, by simp, by omega, hblank, fun hb => htight ?_⟩
    simpa using hb
  | @blank p b b' w rest toks h hrest ih =>
    cases h with
    | @blank f outer c _ hc =>
      obtain ⟨tiles, last, htoks, htext, hlaid⟩ := ih start (gap ++ [c])
        (by rw [hp, Position.through_append])
        (by simpa [or_imp, forall_and] using ⟨hblank, hc⟩) (by simp)
      exact ⟨tiles, last, htoks, by rw [← htext]; simp, hlaid⟩
  | @token p b b' w rest x toks h hrest ih =>
    obtain ⟨tiles, last, rfl, htext, hlaid⟩ := ih (p.through w) [] rfl (by simp)
      (fun _ => rfl)
    let tile : Tile := ⟨gap, w, ⟨x.1, x.2, p⟩⟩
    have hoffset : (p.through w).offset = start.offset + byteLength tile.text := by
      rw [hp, ← Position.through_append, Position.offset_through]
      rfl
    have hfits : tile.Fits start.offset b.length := by
      refine ⟨?_, h.ne_nil, h.spelled, hblank, fun hb => htight (by simpa using hb), by omega, ?_, ?_⟩
      · show p.offset = _
        rw [hp, Position.offset_through]
      · intro hkind
        simp [h.sides.1 hkind]
      · intro hkind
        have hne := List.length_pos_iff.mpr (h.sides.2 hkind)
        omega
    have hapart : x.1 = .text → ∀ u ∈ tiles.head?, u.token.kind ≠ .text := fun hkind u hu =>
      h.apart hrest hkind u.token (by simp [Option.mem_def.mp hu])
    refine ⟨tile :: tiles, last, rfl, ?_, hfits, hapart, ?_⟩
    · rw [List.flatMap_cons, List.append_assoc, ← htext]
      simp [tile, Tile.text]
    · rw [← hoffset, ← h.turn]
      exact hlaid

/-- The tokens of a source tile it: they stand one behind the other with nothing but blanks
    between them, each at the offset of the characters that spell it; text and comments stand
    outside all braces, every other token but an opening brace inside; and the end of input
    stands at the end of the source. -/
theorem tokenize_tiles {source : String} {toks : List Token} (h : tokenize source = .ok toks) :
    ∃ tiles last eof, toks = tiles.map Tile.token ++ [eof] ∧
      source.toList = tiles.flatMap Tile.text ++ last ∧ Tile.Laid 0 0 tiles last ∧
      eof.kind = .eof ∧ eof.pos.offset = byteLength source.toList := by
  obtain ⟨init, rfl, hcuts⟩ := tokenize_cuts h
  obtain ⟨tiles, last, rfl, htext, hlaid⟩ := hcuts.laid Position.start [] rfl (by simp)
    (fun _ => rfl)
  refine ⟨tiles, last, _, rfl, htext, hlaid, rfl, ?_⟩
  rw [Position.offset_through]
  exact Nat.zero_add _

/-- A text with a character of two bytes, and a tag with one brace group in another. -/
theorem tokenize_tiles_nested :
    ∃ toks, tokenize "Hé \x7bb  c=\x7bd\x7d /\x7d" = .ok toks ∧
      ∃ tiles last eof, toks = tiles.map Tile.token ++ [eof] ∧
        "Hé \x7bb  c=\x7bd\x7d /\x7d".toList = tiles.flatMap Tile.text ++ last ∧
        Tile.Laid 0 0 tiles last ∧ eof.kind = .eof ∧
        eof.pos.offset = byteLength "Hé \x7bb  c=\x7bd\x7d /\x7d".toList := by
  have htokens : tokenize "Hé \x7bb  c=\x7bd\x7d /\x7d" =
      .ok [⟨.text, .str "Hé ", ⟨1, 1, 0⟩⟩, ⟨.leftBrace, .none, ⟨1, 4, 4⟩⟩, ⟨.ident, .str "b", ⟨1, 5, 5⟩⟩,
        ⟨.ident, .str "c", ⟨1, 8, 8⟩⟩, ⟨.equal, .none, ⟨1, 9, 9⟩⟩, ⟨.leftBrace, .none, ⟨1, 10, 10⟩⟩,
        ⟨.ident, .str "d", ⟨1, 11, 11⟩⟩, ⟨.rightBrace, .none, ⟨1, 12, 12⟩⟩,
        ⟨.slash, .none, ⟨1, 14, 14⟩⟩, ⟨.rightBrace, .none, ⟨1, 15, 15⟩⟩,
        ⟨.eof, .none, ⟨1, 16, 16⟩⟩] := by decide +kernel
  exact ⟨_, htokens, tokenize_tiles htokens⟩

end Lexer
end BraceTemplate
