import Polyglot.Emit.Knot
import Polyglot.Proofs.StringLiterals
import Polyglot.Proofs.Writing.Basic

/-!
# Format strings

Rust has no operator that puts texts together. A tree of concatenations is emitted as one format string, into which the
literals among its leaves are folded, with the values of the other leaves behind it. So a literal is escaped twice, between
quotes and against braces.

Here a format string is read the way it is meant: the quoting is undone, then braces are scanned from left to right, a pair
of equal ones as one brace and `{}` as a placeholder.
-/

namespace Polyglot

open Text List

/-! ## Undoing quotes -/

namespace Text

/-- The escapes of one letter or mark, with the characters that they stand for. -/
def shortEscapes : List (Char × Char) :=
  [('a', '\x07'), ('b', '\x08'), ('f', '\x0c'), ('n', '\n'), ('r', '\r'), ('t', '\t'), ('v', '\x0b'), ('\\', '\\'), ('"', '"')]

/-- The escapes with a number: how many digits it has, and its bound. A byte beyond ASCII is no character by itself. -/
def numberEscapes : List (Char × Nat × Nat) := [('x', 2, 0x80), ('u', 4, 0x110000), ('U', 8, 0x110000)]

/-- The character below a bound with the number that the first `width` characters spell, and what is behind them. -/
def numbered? (width bound : Nat) (cs : List Char) : Option (Char × List Char) :=
  let digits := cs.take width
  if digits.length = width && digits.all isHexDigit && hexNumber digits < bound && (hexNumber digits).isValidChar then
    some (Char.ofNat (hexNumber digits), cs.drop width)
  else none

/-- **An escape**, behind its backslash: the character that it stands for, and what follows. Escapes in base eight, which
quoting never makes, are left out. -/
def readEscape? : List Char → Option (Char × List Char)
  | [] => none
  | c :: cs =>
    match shortEscapes.lookup c, numberEscapes.lookup c with
    | some d, _ => some (d, cs)
    | none, some (width, bound) => numbered? width bound cs
    | none, none => none

variable {d : Char}

theorem length_of_readEscape? {cs rest : List Char} (h : readEscape? cs = some (d, rest)) :
    rest.length < cs.length := by
  cases cs with
  | nil => cases h
  | cons c cs =>
    rw [readEscape?] at h
    split at h
    · cases h
      exact Nat.lt_succ_self _
    · rw [numbered?] at h
      split at h
      · cases h
        rw [length_drop, length_cons]
        omega
      · cases h
    · cases h

/-- **The text that stands between two double quotes**; nothing when it cannot stand there. -/
def unquote? : List Char → Option (List Char)
  | [] => some []
  | c :: cs =>
    if c = '"' || c = '\n' then none
    else if c = '\\' then
      match _ : readEscape? cs with
      | none => none
      | some (d, rest) => (unquote? rest).map (d :: ·)
    else (unquote? cs).map (c :: ·)
termination_by cs => cs.length
decreasing_by
  · exact Nat.lt_succ_of_lt (length_of_readEscape? ‹_›)
  · exact Nat.lt_succ_self _

theorem unquote?_escape {cs rest : List Char} (h : readEscape? cs = some (d, rest)) :
    unquote? ('\\' :: cs) = (unquote? rest).map (d :: ·) := by
  rw [unquote?]
  simp only [Char.reduceEq, decide_false, Bool.or_self, Bool.false_eq_true, if_false, if_true]
  split
  · next none =>
    rw [h] at none
    cases none
  · next found =>
    rw [h] at found
    cases found
    rfl

theorem numbered?_hex (width bound : Nat) {n : Nat} (rest : List Char) (small : n < 16 ^ width) (inside : n < bound)
    (valid : n.isValidChar) : numbered? width bound (hex width n ++ rest) = some (Char.ofNat n, rest) := by
  have taken : (hex width n ++ rest).take width = hex width n := take_left' (length_hex width n)
  have left : (hex width n ++ rest).drop width = rest := drop_left' (length_hex width n)
  have digits : (hex width n).all isHexDigit = true := all_eq_true.mpr isHexDigit_of_mem_hex
  simp only [numbered?, taken, left, hexNumber_hex small, length_hex, digits]
  simp [inside, valid]

theorem unquote?_quoteChar (c : Char) (rest : List Char) :
    unquote? (quoteChar '"' c ++ rest) = (unquote? rest).map (c :: ·) := by
  have valid : c.toNat.isValidChar := c.valid
  have ways := spelling c
  generalize quoteChar '"' c = text at ways
  cases ways with
  | mark isMark =>
    refine unquote?_escape ?_
    rcases isMark with rfl | rfl <;> rfl
  | plain printable quote slash =>
    have broken : c ≠ '\n' := by
      rintro rfl
      exact absurd printable (by decide)
    rw [singleton_append, unquote?]
    simp [quote, slash, broken]
  | @letter l hidden found =>
    refine unquote?_escape ?_
    have known := mem_letterEscapes found
    have all : ∀ p ∈ letterEscapes, shortEscapes.lookup p.2 = some (Char.ofNat p.1) := by decide
    have read := all _ known
    rw [Char.ofNat_toNat] at read
    show readEscape? (l :: rest) = _
    rw [readEscape?, read]
  | control hidden noLetter ascii =>
    refine unquote?_escape ?_
    have read := numbered?_hex 2 0x80 rest (Nat.lt_trans ascii (by decide)) ascii valid
    rwa [Char.ofNat_toNat] at read
  | short hidden ascii basic =>
    refine unquote?_escape ?_
    have read := numbered?_hex 4 0x110000 rest basic (Nat.lt_trans basic (by decide)) valid
    rwa [Char.ofNat_toNat] at read
  | long hidden high =>
    refine unquote?_escape ?_
    have inside : c.toNat < 0x110000 := by
      omega
    have read := numbered?_hex 8 0x110000 rest (Nat.lt_trans inside (by decide)) inside valid
    rwa [Char.ofNat_toNat] at read

theorem quoteChars_append (cs ds : List Char) : quoteChars (cs ++ ds) = quoteChars cs ++ quoteChars ds := flatMap_append

/-- **Quoting can be undone.** -/
theorem unquote?_quoteChars (cs : List Char) : unquote? (quoteChars cs) = some cs := by
  induction cs with
  | nil => rw [quoteChars, flatMap_nil, unquote?]
  | cons c cs ih => rw [quoteChars_cons, unquote?_quoteChar, ih, Option.map_some]

end Text

/-! ## Reading format strings -/

/-- A piece of a format string: a character, or the place of a value. -/
inductive FormatPiece where
  | char (c : Char)
  | hole
deriving DecidableEq

namespace FormatPiece

def isBrace (c : Char) : Bool := c = '\x7b' || c = '\x7d'

/-- **The pieces of a format string**, scanned from left to right; nothing when a brace is neither doubled nor part of a
placeholder. -/
def scan? : List Char → Option (List FormatPiece)
  | [] => some []
  | '\x7b' :: '\x7b' :: cs => (scan? cs).map (char '\x7b' :: ·)
  | '\x7d' :: '\x7d' :: cs => (scan? cs).map (char '\x7d' :: ·)
  | '\x7b' :: '\x7d' :: cs => (scan? cs).map (hole :: ·)
  | c :: cs => if isBrace c then none else (scan? cs).map (char c :: ·)

/-- The text of some pieces, with values in their places. -/
def fill : List FormatPiece → List String → String
  | [], _ => ""
  | char c :: pieces, values => String.singleton c ++ fill pieces values
  | hole :: pieces, values => values.headD "" ++ fill pieces values.tail

/-- A character as it stands in a format string. -/
def double (c : Char) : List Char := if isBrace c then [c, c] else [c]

theorem scan?_double (c : Char) (rest : List Char) : scan? (double c ++ rest) = (scan? rest).map (char c :: ·) := by
  by_cases left : c = '\x7b'
  · subst left
    rfl
  · by_cases right : c = '\x7d'
    · subst right
      rfl
    · rw [double, if_neg (by simp [isBrace, left, right]), singleton_append, scan?]
      · rw [if_neg (by simp [isBrace, left, right])]
      all_goals simp [left, right]

theorem scan?_flatMap_double (cs rest : List Char) :
    scan? (cs.flatMap double ++ rest) = (scan? rest).map (cs.map char ++ ·) := by
  induction cs with
  | nil => simp
  | cons c cs ih =>
    rw [flatMap_cons, append_assoc, scan?_double, ih, Option.map_map]
    rfl

theorem fill_chars (cs : List Char) (pieces : List FormatPiece) (values : List String) :
    fill (cs.map char ++ pieces) values = String.ofList cs ++ fill pieces values := by
  induction cs with
  | nil => exact String.toList_injective (by simp)
  | cons c cs ih =>
    rw [map_cons, cons_append, fill, ih]
    exact String.toList_injective (by simp)

theorem flatMap_double_of_plain {cs : List Char} (plain : ∀ c ∈ cs, isBrace c = false) : cs.flatMap double = cs := by
  induction cs with
  | nil => rfl
  | cons c cs ih =>
    have here : double c = [c] := if_neg (by simp [plain c mem_cons_self])
    rw [flatMap_cons, here, ih fun d hd => plain d (mem_cons_of_mem _ hd), singleton_append]

theorem isBrace_of_isHexDigit {c : Char} (digit : isHexDigit c) : isBrace c = false := by
  cases brace : isBrace c with
  | false => rfl
  | true =>
    rw [isBrace, Bool.or_eq_true, decide_eq_true_eq, decide_eq_true_eq] at brace
    rcases brace with rfl | rfl <;> cases digit

theorem isBrace_of_mem_quoteChar {c d : Char} (plain : isBrace c = false) (mem : d ∈ quoteChar '"' c) : isBrace d = false := by
  have ways := spelling c
  generalize quoteChar '"' c = text at ways mem
  cases ways with
  | plain => exact mem_singleton.mp mem ▸ plain
  | mark =>
    simp only [mem_cons, not_mem_nil, or_false] at mem
    rcases mem with rfl | rfl
    · rfl
    · exact plain
  | @letter l hidden found =>
    have all : ∀ p ∈ letterEscapes, isBrace p.2 = false := by decide
    simp only [mem_cons, not_mem_nil, or_false] at mem
    rcases mem with rfl | rfl
    · rfl
    · exact all _ (mem_letterEscapes found)
  | control | short | long =>
    rcases mem_cons.mp mem with rfl | mem
    · rfl
    · rcases mem_cons.mp mem with rfl | mem
      · rfl
      · exact isBrace_of_isHexDigit (isHexDigit_of_mem_hex d mem)

/-- Braces may be doubled before or after quoting. -/
theorem flatMap_double_quoteChars (cs : List Char) : (quoteChars cs).flatMap double = quoteChars (cs.flatMap double) := by
  induction cs with
  | nil => rfl
  | cons c cs ih =>
    have single : (quoteChar '"' c).flatMap double = quoteChars (double c) := by
      cases brace : isBrace c with
      | true =>
        rw [isBrace, Bool.or_eq_true, decide_eq_true_eq, decide_eq_true_eq] at brace
        rcases brace with rfl | rfl <;> decide
      | false =>
        rw [flatMap_double_of_plain fun d => isBrace_of_mem_quoteChar brace, double, if_neg (by simp [brace])]
        exact (append_nil _).symm
    rw [quoteChars_cons, flatMap_append, ih, single, flatMap_cons, quoteChars_append]

end FormatPiece

/-! ## Trees of concatenations -/

/-- The text of a literal. -/
def Expr.literalText? (e : Expr) : Option String :=
  match Emit.constantOf? (some e) with
  | some ⟨.string, text⟩ => some text
  | _ => none

def Expr.isConcatenation (e : Expr) : Bool :=
  match e.form with
  | .binary left right => Emit.isConcatenation e left right
  | _ => false

/-- A tree of operators between two operands, down to its leaves. -/
inductive TextTree where
  | leaf (e : Expr)
  | plus (mark : Mark) (left right : TextTree)

namespace TextTree

def expr : TextTree → Expr
  | leaf e => e
  | plus mark left right => .node mark (.binary (some left.expr) (some right.expr))

/-- What is put together, from left to right. -/
def leaves : TextTree → List Expr
  | leaf e => [e]
  | plus _ left right => left.leaves ++ right.leaves

/-- The inner nodes are concatenations, and the leaves are not. -/
def IsProper : TextTree → Prop
  | leaf e => e.isConcatenation = false
  | plus mark left right => (plus mark left right).expr.isConcatenation = true ∧ left.IsProper ∧ right.IsProper

/-- **The concatenation of leaves**: of literals their texts, of the others some values, one for each. -/
def concatenation : List Expr → List String → String
  | [], _ => ""
  | e :: es, values =>
    match e.literalText? with
    | some text => text ++ concatenation es values
    | none => values.headD "" ++ concatenation es values.tail

end TextTree

namespace Emit

open TextTree FormatPiece

variable {r : Emitter} {scene : Scene} {e : Expr} {rendered : List Rendered}

/-- The operands of a chain are the leaves of its tree, however deep it is. -/
theorem concatenated_expr {t : TextTree} (proper : t.IsProper) {fuel : Nat} (deep : t.expr.depth ≤ fuel) :
    concatenated fuel (some t.expr) = t.leaves.map some := by
  induction t generalizing fuel with
  | leaf e =>
    cases fuel with
    | zero => rfl
    | succ fuel =>
      rw [concatenated.eq_def]
      dsimp only
      split
      · next m left right same =>
        cases same
        rw [if_neg (by simpa [IsProper, Expr.isConcatenation, Expr.form] using proper)]
        rfl
      · rfl
  | plus m left right ihLeft ihRight =>
    obtain ⟨isSum, properLeft, properRight⟩ := proper
    simp only [TextTree.expr, Expr.depth, ExprForm.depth, optDepth] at deep
    cases fuel with
    | zero => omega
    | succ fuel =>
      have here :
          isConcatenation (.node m (.binary (some left.expr) (some right.expr))) (some left.expr) (some right.expr) = true :=
        isSum
      rw [TextTree.expr, concatenated, if_pos here, ihLeft properLeft (by omega), ihRight properRight (by omega), TextTree.leaves,
        map_append]

/-- The argument that a leaf becomes behind the format string: a character is made a text first. -/
def formatArgument (e : Expr) (x : Rendered) : String :=
  if e.static.any (·.primitive? = some .char) then "phase::char_str(" ++ x.text ++ ")" else x.text

/-- A leaf in the format string, before it is quoted. -/
def formatChars (e : Expr) : List Char :=
  match e.literalText? with
  | some text => text.toList.flatMap double
  | none => ['\x7b', '\x7d']

theorem formatPart_literal {text : String} (h : e.literalText? = some text) :
    formatPart r (some e) = pure (formatText text, none) := by
  have found : constantOf? (some e) = some ⟨.string, text⟩ := by
    unfold Expr.literalText? at h
    split at h
    · next found =>
      cases h
      exact found
    · cases h
  rw [formatPart, found]

theorem formatPart_value (h : e.literalText? = none) :
    formatPart r (some e) = r.value (some e) >>= fun x => pure ("", some (formatArgument e x)) := by
  unfold Expr.literalText? at h
  unfold formatPart
  split
  · next found =>
    rw [found] at h
    cases h
  · rfl

theorem toList_formatText (s : String) : (formatText s).toList = quoteChars (s.toList.flatMap double) := by
  rw [← flatMap_double_quoteChars, formatText, String.toList_ofList]
  rfl

/-- The leaves are rendered one after the other; literals are only laid down. -/
theorem mapM_formatPart {leaves : List Expr} {sheet sheet' : Sheet}
    (renders : (leaves.filter (·.literalText?.isNone)).mapM (fun e => r.value (some e)) scene sheet = (.ok rendered, sheet')) :
    ∃ parts, (leaves.map some).mapM (formatPart r) scene sheet = (.ok parts, sheet') ∧
      parts.filterMap (·.2) = zipWith formatArgument (leaves.filter (·.literalText?.isNone)) rendered ∧
      rendered.length = (leaves.filter (·.literalText?.isNone)).length ∧
      (String.join (parts.map fun p => p.1 ++ if p.2.isSome then "\x7b\x7d" else "")).toList =
        quoteChars (leaves.flatMap formatChars) := by
  induction leaves generalizing sheet rendered with
  | nil =>
    cases renders
    exact ⟨[], rfl, rfl, rfl, rfl⟩
  | cons e leaves ih =>
    rw [map_cons, mapM_cons]
    cases literal : e.literalText? with
    | some text =>
      rw [filter_cons_of_neg (by simp [literal])] at renders
      obtain ⟨parts, run, args, count, pattern⟩ := ih renders
      refine ⟨(formatText text, none) :: parts, ?_, ?_, ?_, ?_⟩
      · rw [formatPart_literal literal, pure_bind, bind_ok run]
        rfl
      · rw [filter_cons_of_neg (by simp [literal]), ← args]
        rfl
      · rw [filter_cons_of_neg (by simp [literal]), count]
      · rw [map_cons, String.join_cons, String.toList_append, pattern, flatMap_cons, formatChars, literal]
        simp [toList_formatText, quoteChars_append]
    | none =>
      rw [filter_cons_of_pos (by simp [literal]), mapM_cons] at renders
      obtain ⟨x, inner, first, renders⟩ := bind_eq_ok renders
      obtain ⟨xs, inner', others, renders⟩ := bind_eq_ok renders
      cases renders
      obtain ⟨parts, run, args, count, pattern⟩ := ih others
      refine ⟨("", some (formatArgument e x)) :: parts, ?_, ?_, ?_, ?_⟩
      · rw [formatPart_value literal, bind_assoc, bind_ok first, pure_bind, bind_ok run]
        rfl
      · rw [filter_cons_of_pos (by simp [literal]), zipWith_cons_cons, ← args]
        rfl
      · rw [filter_cons_of_pos (by simp [literal]), length_cons, length_cons, count]
      · rw [map_cons, String.join_cons, String.toList_append, pattern, flatMap_cons, formatChars, literal]
        simp only [Option.isSome_some]
        rfl

/-- What is laid down is read as it is meant, piece by piece. -/
theorem scan?_formatChars (leaves : List Expr) : ∃ pieces, scan? (leaves.flatMap formatChars) = some pieces ∧
      pieces.count .hole = (leaves.filter (·.literalText?.isNone)).length ∧
      ∀ values, fill pieces values = concatenation leaves values := by
  induction leaves with
  | nil => exact ⟨[], rfl, rfl, fun _ => rfl⟩
  | cons e leaves ih =>
    obtain ⟨pieces, scanned, holes, filled⟩ := ih
    rw [flatMap_cons, formatChars]
    cases literal : e.literalText? with
    | some text =>
      refine ⟨text.toList.map .char ++ pieces, ?_, ?_, fun values => ?_⟩
      · rw [scan?_flatMap_double, scanned, Option.map_some]
      · have none : (text.toList.map FormatPiece.char).count .hole = 0 := count_eq_zero.mpr (by simp)
        rw [count_append, none, holes, filter_cons_of_neg (by simp [literal]), Nat.zero_add]
      · rw [fill_chars, filled, String.ofList_toList, concatenation, literal]
    | none =>
      refine ⟨.hole :: pieces, ?_, ?_, fun values => ?_⟩
      · change (scan? (leaves.flatMap formatChars)).map (.hole :: ·) = _
        rw [scanned, Option.map_some]
      · rw [count_cons_self, holes, filter_cons_of_pos (by simp [literal]), length_cons]
      · rw [fill, filled, concatenation, literal]

/-- The arguments behind the format string. -/
theorem join_arguments (parts : List (String × Option String)) :
    String.join (parts.map fun p => (p.2.map (", " ++ ·)).getD "") = String.join ((parts.filterMap (·.2)).map (", " ++ ·)) := by
  induction parts with
  | nil => rfl
  | cons p parts ih =>
    obtain ⟨text, arg⟩ := p
    rw [map_cons, String.join_cons, ih]
    cases arg with
    | none => exact String.empty_append
    | some arg => exact (String.join_cons ..).symm

/-- **Format strings concatenate.** A tree of concatenations is emitted in Rust as `format!`, whatever its shape, when the
leaves that are no literals are rendered one after the other. What stands behind the format string are these leaves in order.
The format string, with its quoting undone, is made of characters, doubled braces and as many placeholders as there are
arguments; with any values in their places it is the concatenation of the leaves. -/
theorem format_concatenates (rust : scene.target = .rust) {m : Mark} {left right : TextTree}
    (proper : (plus m left right).IsProper) {sheet sheet' : Sheet}
    (renders : ((plus m left right).leaves.filter (·.literalText?.isNone)).mapM (fun e => r.value (some e)) scene sheet =
      (.ok rendered, sheet')) (isStatement : Bool) :
    ∃ pattern args text pieces,
      expression r isStatement (plus m left right).expr scene sheet =
        (.ok (.postfixed ("format!(\"" ++ pattern ++ "\"" ++ String.join (args.map (", " ++ ·)) ++ ")")), sheet') ∧
      args = zipWith formatArgument ((plus m left right).leaves.filter (·.literalText?.isNone)) rendered ∧
      unquote? pattern.toList = some text ∧ scan? text = some pieces ∧ pieces.count .hole = args.length ∧
      ∀ values, fill pieces values = concatenation (plus m left right).leaves values := by
  obtain ⟨parts, run, args, count, pattern⟩ := mapM_formatPart renders
  obtain ⟨pieces, scanned, holes, filled⟩ := scan?_formatChars (plus m left right).leaves
  have unquoted := unquote?_quoteChars ((plus m left right).leaves.flatMap formatChars)
  rw [← pattern] at unquoted
  refine ⟨_, _, _, pieces, ?_, rfl, unquoted, scanned, ?_, filled⟩
  · have isSum : isConcatenation (plus m left right).expr (some left.expr) (some right.expr) = true := proper.1
    have operands := concatenated_expr proper (Nat.le_refl (plus m left right).expr.depth)
    have inRust : target scene sheet = (.ok .rust, sheet) := by
      rw [← rust]
      rfl
    show binary r (plus m left right).expr (some left.expr) (some right.expr) scene sheet = _
    rw [binary, bind_ok inRust]
    dsimp only
    rw [if_pos isSum, operands, if_neg (by simp), bind_ok run, formatted, join_arguments, args]
    rfl
  · rw [holes, length_zipWith, count, Nat.min_self]

def textLeaf (text : String) : TextTree :=
  .leaf (.node { place := {}, static := some .string, converted := some .string } (.literal ⟨.string, text⟩))

def localLeaf (name : String) (type : Ty) : TextTree :=
  .leaf (.node
    { place := {}, symbol := some { kind := .local, name, type := some type }, static := some type, converted := some type }
    .identifier)

def together (left right : TextTree) : TextTree :=
  plus { place := {}, op := "+", static := some .string, converted := some .string } left right

/-- Braces beside a number and a character, in a tree that leans to both sides. -/
def bracesTree : TextTree :=
  together (together (textLeaf "\x7b") (localLeaf "n" .int))
    (together (textLeaf "\x7d\n") (together (localLeaf "c" .char) (textLeaf "\x7b\x7d")))

theorem format_concatenates_braces :
    bracesTree.IsProper ∧ ∃ pattern args text pieces,
      expression (.within 1) false bracesTree.expr (Scene.bare .rust) (Scene.bare .rust).blank =
        (.ok (.postfixed ("format!(\"" ++ pattern ++ "\"" ++ String.join (args.map (", " ++ ·)) ++ ")")),
          (Scene.bare .rust).blank) ∧
      args = ["n", "phase::char_str(c)"] ∧
      unquote? pattern.toList = some text ∧ scan? text = some pieces ∧ pieces.count .hole = args.length ∧
      ∀ values, fill pieces values = concatenation bracesTree.leaves values := by
  have proper : bracesTree.IsProper := ⟨rfl, ⟨rfl, rfl, rfl⟩, rfl, rfl, rfl, rfl, rfl⟩
  have renders : (bracesTree.leaves.filter (·.literalText?.isNone)).mapM (fun e => (Emitter.within 1).value (some e))
      (Scene.bare .rust) (Scene.bare .rust).blank =
        (.ok [.primary "n", .primary "c"], (Scene.bare .rust).blank) := rfl
  exact ⟨proper, format_concatenates rfl proper renders false⟩

end Emit

end Polyglot
