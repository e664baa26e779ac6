import Polyglot.Prelude
import Polyglot.Proofs.Passes

/-!
# Keys of types

The key of a type is a flat text: names, with marks between them for arguments, arrays and type parameters. It is read in one
way only, since no name has a mark in it: a name ends at the first mark, and an argument at the first comma or bracket that is
not its own. `Ty.Alike` says when two types are the same without looking at keys.
-/

namespace Polyglot

open List

namespace Ty

open TypeExpr (arraysOf)

/-- **The same type**: the same type parameter, arrays of the same type, or the same definition with the same arguments
one by one. -/
inductive Alike : Ty → Ty → Prop where
  | param (name : String) : Alike (.param name) (.param name)
  | array {a b : Ty} (elem : Alike a b) : Alike (.array a) (.array b)
  | applied {a b : Ty} (plain : a.isArray = false ∧ a.isParam = false) (plain' : b.isArray = false ∧ b.isParam = false)
      (definition : a.definitionKey = b.definitionKey) (count : a.typeArgs.length = b.typeArgs.length)
      (args : ∀ p ∈ a.typeArgs.zip b.typeArgs, Alike p.1 p.2) : Alike a b

/-! ## Names and marks -/

def keyMarks : List Char := ['!', '<', ',', '>', '[', ']']

def Unmarked (name : String) : Prop := ∀ c ∈ name.toList, c ∉ keyMarks

-- The instance goes over the characters of the name, and not over all characters.
instance (name : String) : Decidable (Unmarked name) := decidableBAll _ _

theorem unmarked_of_isWords {name : String} (h : IsWords name) : Unmarked name := by
  have marks : keyMarks.all (fun c => c ≠ '.' && !Text.isIdentifierChar c) = true := by decide
  intro c hc mark
  obtain ⟨dot, word⟩ : c ≠ '.' ∧ Text.isIdentifierChar c = false := by simpa using all_eq_true.mp marks c mark
  rcases isIdentifierChar_of_isWords h hc with same | char
  · exact dot same
  · rw [word] at char
    cases char

def BeginsWith (chars text : List Char) : Prop := ∀ c ∈ text.head?, c ∈ chars

variable {x y : List Char} {p q : String} {t u : Ty}

/-- **A name ends at the first mark**, if no mark is in it. -/
theorem append_marks_inj {marks : List Char} (hp : ∀ c ∈ p.toList, c ∉ marks) (hq : ∀ c ∈ q.toList, c ∉ marks)
    (hx : BeginsWith marks x) (hy : BeginsWith marks y) (h : p.toList ++ x = q.toList ++ y) : p = q ∧ x = y := by
  rcases append_eq_append_iff.mp h with ⟨c, more, rest⟩ | ⟨c, more, rest⟩
  · cases c with
    | nil => exact ⟨String.toList_injective (by rw [more, append_nil]), rest⟩
    | cons d c =>
      have inside : d ∈ q.toList := by simp [more]
      exact absurd (hx d (by simp [rest])) (hq d inside)
  · cases c with
    | nil => exact ⟨String.toList_injective (by rw [more, append_nil]), rest.symm⟩
    | cons d c =>
      have inside : d ∈ p.toList := by simp [more]
      exact absurd (hy d (by simp [rest])) (hp d inside)

def argsText (keys : List String) : String := if keys.isEmpty then "" else "<" ++ Text.join "," keys ++ ">"

theorem keys_eq_map (ts : List Ty) : keys ts = ts.map key := by
  induction ts with
  | nil => rfl
  | cons t ts ih => rw [keys, ih, map_cons]

/-- A definition with its arguments: its keys are made of its name and what it is applied to. -/
structure Applied (t : Ty) : Prop where
  plain : t.isArray = false ∧ t.isParam = false
  unmarked : Unmarked t.qualified
  arityMark : arityMark ∉ t.qualified.toList
  key : t.key = t.qualified ++ argsText (t.typeArgs.map Ty.key)
  definition : t.definitionKey = arityKey t.qualified t.typeArgs.length

theorem applied_atom (declared : t.head? = none) (plain : t.isArray = false ∧ t.isParam = false) : t.Applied := by
  cases t with
  | array e => cases plain.1
  | param name => cases plain.2
  | named h => cases declared
  | closed h args base interfaces => cases declared
  | primitive p =>
    have names : Unmarked (primitive p).qualified ∧ Polyglot.arityMark ∉ (primitive p).qualified.toList := by
      cases p <;> decide
    exact ⟨⟨rfl, rfl⟩, names.1, names.2, by cases p <;> decide, by cases p <;> decide⟩
  | _ => exact ⟨⟨rfl, rfl⟩, by decide, by decide, by decide, by decide⟩

variable {h : TypeHead} {ts us : List Ty}

theorem applied_named (params : h.params = []) (unmarked : Unmarked h.qualified)
    (mark : Polyglot.arityMark ∉ h.qualified.toList) : (named h).Applied where
  plain := ⟨rfl, rfl⟩
  unmarked := unmarked
  arityMark := mark
  key := by rw [key, typeArgs, params]; rfl
  definition := by rw [typeArgs, length_map]; rfl

theorem applied_closed {args : List Ty} (base : Option Ty) (interfaces : List Ty) (arity : h.params.length = args.length)
    (unmarked : Unmarked h.qualified) (mark : Polyglot.arityMark ∉ h.qualified.toList) :
    (closed h args base interfaces).Applied where
  plain := ⟨rfl, rfl⟩
  unmarked := unmarked
  arityMark := mark
  key := by
    rw [key, keys_eq_map, argsText, isEmpty_map]
    rfl
  definition := by
    rw [typeArgs, ← arity]
    rfl

/-! ## Reading keys back -/

/-- The types whose keys can be read back: arrays, of any depth, of type parameters or applied definitions. -/
inductive Legible : Ty → Prop where
  | param (arrays : Nat) {name : String} (unmarked : Unmarked name) : Legible (arraysOf arrays (.param name))
  | applied (arrays : Nat) {t : Ty} (applied : t.Applied) (args : ∀ a ∈ t.typeArgs, Legible a) :
      Legible (arraysOf arrays t)

/-- The brackets of nested arrays. -/
def brackets (n : Nat) : List Char := (replicate n ['[', ']']).flatten

theorem arraysOf_succ (n : Nat) (t : Ty) : arraysOf (n + 1) t = .array (arraysOf n t) := by
  induction n generalizing t with
  | zero => rfl
  | succ n ih => exact ih (.array t)

theorem toList_key_arraysOf (n : Nat) (t : Ty) : (arraysOf n t).key.toList = t.key.toList ++ brackets n := by
  induction n generalizing t with
  | zero => exact (append_nil _).symm
  | succ n ih =>
    rw [arraysOf, ih, key, String.toList_append, append_assoc]
    rfl

theorem alike_arraysOf (h : Alike t u) (n : Nat) : Alike (arraysOf n t) (arraysOf n u) := by
  induction n generalizing t u with
  | zero => exact h
  | succ n ih => exact ih (.array h)

theorem brackets_append_inj {m n : Nat} (hx : BeginsWith [',', '>'] x) (hy : BeginsWith [',', '>'] y)
    (h : brackets m ++ x = brackets n ++ y) : m = n ∧ x = y := by
  have step (k : Nat) : brackets (k + 1) = '[' :: ']' :: brackets k := by
    rfl
  induction m generalizing n with
  | zero =>
    cases n with
    | zero => exact ⟨rfl, h⟩
    | succ n =>
      have begins : x = '[' :: ']' :: (brackets n ++ y) := by rw [step] at h; exact h
      exact absurd (hx '[' (by rw [begins]; rfl)) (by decide)
  | succ m ih =>
    cases n with
    | zero =>
      have begins : '[' :: ']' :: (brackets m ++ x) = y := by rw [step] at h; exact h
      exact absurd (hy '[' (by rw [← begins]; rfl)) (by decide)
    | succ n =>
      obtain ⟨same, rest⟩ := ih (cons.inj (cons.inj h).2).2
      exact ⟨congrArg (· + 1) same, rest⟩

theorem beginsWith_brackets (n : Nat) (hx : BeginsWith [',', '>'] x) :
    BeginsWith ['[', ',', '>'] (brackets n ++ x) := by
  cases n with
  | zero => exact fun c hc => mem_cons_of_mem _ (hx c hc)
  | succ n =>
    intro c hc
    cases hc
    exact mem_cons_self

/-- The key of a type says which type it is, and where it ends. -/
def ReadsBack (t : Ty) : Prop :=
  ∀ u x y, Legible u → BeginsWith [',', '>'] x → BeginsWith [',', '>'] y → t.key.toList ++ x = u.key.toList ++ y →
    Alike t u ∧ x = y

/-- What follows the key of the first of several arguments. -/
theorem toList_join_keys (t : Ty) (ts : List Ty) (x : List Char) :
    ∃ rest, (Text.join "," ((t :: ts).map key)).toList ++ '>' :: x = t.key.toList ++ rest ∧ BeginsWith [',', '>'] rest ∧
      (ts = [] ∧ rest = '>' :: x ∨ ts ≠ [] ∧ rest = ',' :: ((Text.join "," (ts.map key)).toList ++ '>' :: x)) := by
  cases ts with
  | nil => exact ⟨_, rfl, by simp [BeginsWith], .inl ⟨rfl, rfl⟩⟩
  | cons u us =>
    refine ⟨_, ?_, by simp [BeginsWith], .inr ⟨cons_ne_nil _ _, rfl⟩⟩
    rw [map_cons, Text.join_cons _ _ (by simp), String.toList_append, String.toList_append, append_assoc,
      append_assoc]
    rfl

/-- **A list of arguments is read in one way.** -/
theorem args_inj (ht : ∀ t ∈ ts, ReadsBack t) (hu : ∀ u ∈ us, Legible u) (some : ts ≠ [])
    (some' : us ≠ [])
    (h : (Text.join "," (ts.map key)).toList ++ '>' :: x = (Text.join "," (us.map key)).toList ++ '>' :: y) :
    ts.length = us.length ∧ (∀ p ∈ ts.zip us, Alike p.1 p.2) ∧ x = y := by
  induction ts generalizing us with
  | nil => exact absurd rfl some
  | cons t ts ih =>
    cases us with
    | nil => exact absurd rfl some'
    | cons u us =>
      obtain ⟨xs, hxs, endsX, casesX⟩ := toList_join_keys t ts x
      obtain ⟨ys, hys, endsY, casesY⟩ := toList_join_keys u us y
      rw [hxs, hys] at h
      obtain ⟨first, same⟩ := ht t mem_cons_self u xs ys (hu u mem_cons_self) endsX endsY h
      rcases casesX with ⟨rfl, rfl⟩ | ⟨more, rfl⟩ <;> rcases casesY with ⟨rfl, rfl⟩ | ⟨more', rfl⟩
      · exact ⟨rfl, by simpa using first, (cons.inj same).2⟩
      · exact absurd (cons.inj same).1 (by decide)
      · exact absurd (cons.inj same).1 (by decide)
      · obtain ⟨length, rest, ends⟩ := ih (fun t h => ht t (mem_cons_of_mem _ h))
          (fun u h => hu u (mem_cons_of_mem _ h)) more more' (cons.inj same).2
        refine ⟨congrArg (· + 1) length, ?_, ends⟩
        exact forall_mem_cons.mpr ⟨first, rest⟩

theorem toList_argsText (some : ts ≠ []) (x : List Char) :
    (argsText (ts.map key)).toList ++ x = '<' :: ((Text.join "," (ts.map key)).toList ++ '>' :: x) := by
  rw [argsText, if_neg (by simpa using some)]
  simp

theorem beginsWith_argsText (ts : List Ty) (hx : BeginsWith ['[', ',', '>'] x) :
    BeginsWith ['<', '[', ',', '>'] ((argsText (ts.map key)).toList ++ x) := by
  by_cases none : ts = []
  · rw [none]
    exact fun c hc => mem_cons_of_mem _ (hx c hc)
  · rw [toList_argsText none]
    intro c hc
    cases hc
    exact mem_cons_self

theorem BeginsWith.mark (h : BeginsWith ['<', '[', ',', '>'] x) : BeginsWith keyMarks x := by
  have marks : ['<', '[', ',', '>'] ⊆ keyMarks := by decide
  exact fun c hc => marks (h c hc)

theorem argsText_inj (ht : ∀ t ∈ ts, ReadsBack t) (hu : ∀ u ∈ us, Legible u)
    (hx : BeginsWith ['[', ',', '>'] x) (hy : BeginsWith ['[', ',', '>'] y)
    (h : (argsText (ts.map key)).toList ++ x = (argsText (us.map key)).toList ++ y) :
    ts.length = us.length ∧ (∀ p ∈ ts.zip us, Alike p.1 p.2) ∧ x = y := by
  have opens {z : List Char} (hz : BeginsWith ['[', ',', '>'] z) (rest : List Char) : z ≠ '<' :: rest := by
    rintro rfl
    exact absurd (hz '<' rfl) (by decide)
  by_cases none : ts = [] <;> by_cases none' : us = []
  · subst none none'
    exact ⟨rfl, by simp, h⟩
  · subst none
    rw [toList_argsText none'] at h
    exact absurd h (opens hx _)
  · subst none'
    rw [toList_argsText none] at h
    exact absurd h.symm (opens hy _)
  · rw [toList_argsText none, toList_argsText none'] at h
    exact args_inj ht hu none none' (cons.inj h).2

theorem Applied.inj (ht : t.Applied) (hu : u.Applied) (args : ∀ a ∈ t.typeArgs, ReadsBack a)
    (args' : ∀ a ∈ u.typeArgs, Legible a) (hx : BeginsWith ['[', ',', '>'] x) (hy : BeginsWith ['[', ',', '>'] y)
    (h : t.key.toList ++ x = u.key.toList ++ y) : Alike t u ∧ x = y := by
  rw [ht.key, hu.key, String.toList_append, String.toList_append, append_assoc, append_assoc] at h
  obtain ⟨name, rest⟩ := append_marks_inj ht.unmarked hu.unmarked (beginsWith_argsText _ hx).mark
    (beginsWith_argsText _ hy).mark h
  obtain ⟨count, alike, ends⟩ := argsText_inj args args' hx hy rest
  have definition : t.definitionKey = u.definitionKey := by rw [ht.definition, hu.definition, name, count]
  exact ⟨.applied ht.plain hu.plain definition count alike, ends⟩

theorem Applied.ne_param (hu : u.Applied) (name : String) (hy : BeginsWith ['[', ',', '>'] y) :
    (param name).key.toList ++ x ≠ u.key.toList ++ y := by
  intro h
  rw [hu.key, Ty.key, String.toList_append, String.toList_append, append_assoc, append_assoc] at h
  have ends := beginsWith_argsText u.typeArgs hy
  obtain ⟨-, rest⟩ := append_marks_inj (p := "") (by simp) hu.unmarked
    (x := '!' :: (name.toList ++ x)) (by intro c hc; cases hc; decide) ends.mark h
  exact absurd (ends '!' (by rw [← rest]; rfl)) (by decide)

theorem param_inj {name name' : String} (unmarked : Unmarked name) (unmarked' : Unmarked name')
    (hx : BeginsWith ['[', ',', '>'] x) (hy : BeginsWith ['[', ',', '>'] y)
    (h : (param name).key.toList ++ x = (param name').key.toList ++ y) : name = name' ∧ x = y := by
  rw [key, key, String.toList_append, String.toList_append, append_assoc] at h
  have mark {z : List Char} (hz : BeginsWith ['[', ',', '>'] z) : BeginsWith keyMarks z :=
    BeginsWith.mark fun c hc => mem_cons_of_mem _ (hz c hc)
  exact append_marks_inj unmarked unmarked' (mark hx) (mark hy) (append_cancel_left h)

/-- **Keys are read in one way.** The induction is on the type: brackets of arrays stand behind everything else, so they
are taken off first, and the hypothesis is for the arguments. -/
theorem readsBack_of_legible (ht : Legible t) : ReadsBack t := by
  induction ht with
  | param m unmarked =>
    intro u x y hu hx hy h
    rw [toList_key_arraysOf, append_assoc] at h
    cases hu with
    | param n unmarked' =>
      rw [toList_key_arraysOf, append_assoc] at h
      obtain ⟨rfl, rest⟩ := param_inj unmarked unmarked' (beginsWith_brackets m hx) (beginsWith_brackets n hy) h
      obtain ⟨rfl, ends⟩ := brackets_append_inj hx hy rest
      exact ⟨alike_arraysOf (.param _) m, ends⟩
    | applied n applied' _ =>
      rw [toList_key_arraysOf, append_assoc] at h
      exact absurd h (applied'.ne_param _ (beginsWith_brackets n hy))
  | applied m applied _ ih =>
    intro u x y hu hx hy h
    rw [toList_key_arraysOf, append_assoc] at h
    cases hu with
    | param n unmarked' =>
      rw [toList_key_arraysOf, append_assoc] at h
      exact absurd h.symm (applied.ne_param _ (beginsWith_brackets m hx))
    | applied n applied' args' =>
      rw [toList_key_arraysOf, append_assoc] at h
      obtain ⟨alike, rest⟩ := applied.inj applied' ih args' (beginsWith_brackets m hx) (beginsWith_brackets n hy) h
      obtain ⟨rfl, ends⟩ := brackets_append_inj hx hy rest
      exact ⟨alike_arraysOf alike m, ends⟩

theorem alike_of_key_eq (ht : Legible t) (hu : Legible u) (h : t.key = u.key) : Alike t u :=
  (readsBack_of_legible ht u [] [] hu nofun nofun (by rw [h])).1

/-! ## Keys of the same type -/

theorem arityKey_inj {m n : Nat} (hp : arityMark ∉ p.toList) (hq : arityMark ∉ q.toList)
    (h : arityKey p m = arityKey q n) : p = q ∧ m = n := by
  obtain rfl := arity_eq_of_arityKey_eq (endsInName_of_not_mem hp) hq h
  have chars : (arityKey p m).toList = (arityKey q m).toList := by rw [h]
  rw [toList_arityKey, toList_arityKey] at chars
  refine ⟨String.toList_injective ?_, rfl⟩
  split at chars
  · exact chars
  · exact append_cancel_right chars

/-- What stands in a type with a key that can be read back has such a key, too. -/
theorem Legible.parts (h : Legible t) : (∀ e, t = .array e → Legible e) ∧
    (t.isArray = false → t.isParam = false → t.Applied ∧ ∀ a ∈ t.typeArgs, Legible a) := by
  cases h with
  | param n unmarked =>
    cases n with
    | zero => exact ⟨nofun, nofun⟩
    | succ n =>
      rw [arraysOf_succ]
      exact ⟨fun e whole => Ty.array.inj whole ▸ .param n unmarked, nofun⟩
  | applied n applied args =>
    cases n with
    | zero =>
      refine ⟨?_, fun _ _ => ⟨applied, args⟩⟩
      rintro e rfl
      cases applied.plain.1
    | succ n =>
      rw [arraysOf_succ]
      exact ⟨fun e whole => Ty.array.inj whole ▸ .applied n applied args, nofun⟩

theorem key_eq_of_alike (alike : Alike t u) (ht : Legible t) (hu : Legible u) : t.key = u.key := by
  induction alike with
  | param => rfl
  | array _ ih => rw [key, key, ih (ht.parts.1 _ rfl) (hu.parts.1 _ rfl)]
  | @applied a b plain plain' definition count _ ih =>
    obtain ⟨applied, args⟩ := ht.parts.2 plain.1 plain.2
    obtain ⟨applied', args'⟩ := hu.parts.2 plain'.1 plain'.2
    rw [applied.definition, applied'.definition] at definition
    obtain ⟨name, -⟩ := arityKey_inj applied.arityMark applied'.arityMark definition
    have keys : a.typeArgs.map key = b.typeArgs.map key := by
      refine map_eq_map_of_forall₂ (forall₂_iff_zip.mpr ⟨count, fun hp => ?_⟩)
      exact ih _ hp (args _ (of_mem_zip hp).1) (args' _ (of_mem_zip hp).2)
    rw [applied.key, applied'.key, name, keys]

/-- A type as it is entered into an index, with a name that keys can hold. -/
def IsLegibleRow : Ty → Prop
  | named h => Unmarked h.qualified
  | param _ => False
  | _ => True

instance : (t : Ty) → Decidable t.IsLegibleRow
  | named h => inferInstanceAs (Decidable (Unmarked h.qualified))
  | param _ => .isFalse id
  | void | null | object | dynamic | string | primitive _ | array _ | closed _ _ _ _ => .isTrue trivial

end Ty

namespace TypeExpr

/-! ## Types that are read -/

open Ty

variable {s : Scope}

variable {name : String} {t : Ty}

/-- What a name stands for by itself: a type parameter in scope, a short name, or a row of the index. -/
theorem referent?_type {arity : Nat} (plain : arityMark ∉ name.toList) (h : s.referent? name arity = some (.type t)) :
    (t = .param name ∧ name ∈ s.params) ∨ Ty.alias? name = some t ∨ ∃ k, s.index.byKey.lookup k = some t := by
  unfold Scope.referent? at h
  split at h
  · next listed =>
    cases h
    rw [Bool.and_eq_true, contains_iff_mem] at listed
    exact .inl ⟨rfl, listed.2⟩
  · split at h
    · next u short =>
      cases h
      split at short
      · exact .inr (.inl short)
      · cases short
    · obtain ⟨d, found, same⟩ := Option.map_eq_some_iff.mp h
      obtain ⟨full, -, found⟩ := exists_find?_of_resolve? plain found
      split at same
      · cases same
        exact .inr (.inr ⟨_, found⟩)
      · cases same

theorem legible_atom (declared : t.head? = none) (plain : t.isArray = false ∧ t.isParam = false) (n : Nat) :
    Legible (arraysOf n t) := by
  have none : t.typeArgs = [] := by
    cases t with
    | named h => cases declared
    | closed h args base interfaces => cases declared
    | _ => rfl
  exact .applied n (applied_atom declared plain) (by simp [none])

theorem legible_row {k : String} (sound : s.index.Sound) (row : t.IsLegibleRow) (proper : t.Proper s.index)
    (found : s.index.byKey.lookup k = some t) (n : Nat) : Legible (arraysOf n t) := by
  have isRow := sound.row k t found
  cases proper with
  | atom declared array =>
    have param : t.isParam = false := by
      cases t with
      | param name => exact row.elim
      | _ => rfl
    exact legible_atom declared ⟨array, param⟩ n
  | array => exact isRow.elim
  | named _ params => exact .applied n (applied_named params row isRow.2) (by simp [typeArgs, params])
  | closed => exact isRow.elim

theorem alias?_plain (h : Ty.alias? name = some t) : t.isParam = false := by
  unfold Ty.alias? at h
  split at h <;> cases h <;> rfl

/-- **What an expression means has a key that can be read back.** -/
theorem legible_resolve {e : TypeExpr} (sound : s.index.Sound) (rows : ∀ k t, s.index.byKey.lookup k = some t → t.IsLegibleRow)
    (params : ∀ p ∈ s.params, Unmarked p) (plain : e.PlainNames) (run : resolve s e = .ok t) : Legible t := by
  induction plain generalizing t with
  | @mk name args arrays plain _ ih =>
    obtain ⟨t, rfl, resolved⟩ := resolve_cases run
    cases resolved with
    | type found _ =>
      have proper := referent?_proper sound plain found
      rcases referent?_type plain found with ⟨rfl, listed⟩ | short | ⟨k, row⟩
      · exact .param arrays (params name listed)
      · obtain ⟨declared, array⟩ := alias?_atom short
        exact legible_atom declared ⟨array, alias?_plain short⟩ arrays
      · exact legible_row sound (rows k t row) proper row arrays
    | generic found each made =>
      obtain ⟨known, arity, -⟩ := referent?_proper sound plain found
      obtain ⟨base, interfaces, rfl⟩ := instantiate?_eq_some made
      refine .applied arrays ?_ ?_
      · exact applied_closed base interfaces (arity.trans each.length_eq) (rows _ _ known) (sound.row _ _ known).2
      · intro a ha
        obtain ⟨e, he, means⟩ := exists_mem_of_forall₂ each ha
        exact ih e he means

end TypeExpr

namespace Compilation

open Ty

variable {file : String} {doc : Document} {c : Compilation}

/-- **The index of a compilation**: all definitions under their own keys, and what holds of the built-in types and of all types
whose names are words holds of every row. -/
theorem rows_of_load {P : Ty → Prop} (load : ofDocument Prelude.types file doc = .ok c)
    (names : ∀ d, some d ∈ doc.externals ++ doc.types → IsWords d.name) (builtin : ∀ row ∈ Ty.builtins, P row.2)
    (entered : ∀ d : TypeDraft, IsWords d.name → P (.named d.head)) :
    c.world.index.Sound ∧ ∀ k t, c.world.index.byKey.lookup k = some t → P t := by
  obtain ⟨w₁, w₂, w₃, w₄, known, own, hknown, hown, -, -, -, -, index⟩ := ofDocument_passes load
  have library : ∀ d ∈ Prelude.types, IsWords d.name := by decide +kernel
  have wordsKnown : ∀ d, some d ∈ Prelude.types.map some ++ doc.externals → IsWords d.name := by
    intro d hd
    rcases mem_append.mp hd with listed | listed
    · obtain ⟨d', hd', same⟩ := mem_map.mp listed
      cases same
      exact library d hd'
    · exact names d (mem_append_left _ listed)
  have wordsOwn : ∀ d, some d ∈ doc.types → IsWords d.name := fun d hd => names d (mem_append_right _ hd)
  have namedKnown d hd := TypeDraft.wellNamed_of_isWords (wordsKnown d hd)
  have namedOwn d hd := TypeDraft.wellNamed_of_isWords (wordsOwn d hd)
  have rows : ∀ k t, ({} : TypeIndex).byKey.lookup k = some t → P t := fun k t found => builtin (k, t) (mem_of_lookup found)
  have rows₁ := declareTypes_rows namedKnown (fun d hd => entered d (wordsKnown d hd)) rows hknown
  have rows₂ := declareTypes_rows namedOwn (fun d hd => entered d (wordsOwn d hd)) rows₁ hown
  have sound₁ := (declareTypes_known namedKnown TypeIndex.sound_empty hknown).1
  have sound₂ := (declareTypes_known namedOwn sound₁ hown).1
  rw [index]
  exact ⟨sound₂, rows₂⟩

/-- The definitions of a compilation have names that keys can hold. -/
theorem index_of_load (load : ofDocument Prelude.types file doc = .ok c)
    (names : ∀ d, some d ∈ doc.externals ++ doc.types → IsWords d.name) :
    c.world.index.Sound ∧ ∀ k t, c.world.index.byKey.lookup k = some t → t.IsLegibleRow := by
  refine rows_of_load load names (by decide) fun d words => ?_
  change Unmarked d.head.qualified
  rw [(TypeDraft.wellNamed_of_isWords words).qualified]
  exact unmarked_of_isWords words

/-- **Keys are canonical.** Two types that are read in a compilation, in whatever namespaces, with whatever namespaces
imported and type parameters in scope, have the same key exactly when they are the same type. -/
theorem key_eq_iff_alike (load : ofDocument Prelude.types file doc = .ok c)
    (names : ∀ d, some d ∈ doc.externals ++ doc.types → IsWords d.name) {s s' : TypeExpr.Scope}
    (index : s.index = c.world.index) (index' : s'.index = c.world.index) (params : ∀ p ∈ s.params, IsWords p)
    (params' : ∀ p ∈ s'.params, IsWords p) {x y : String} {a b : Ty} (ha : TypeExpr.read s x = .ok a)
    (hb : TypeExpr.read s' y = .ok b) : a.key = b.key ↔ Alike a b := by
  obtain ⟨sound, rows⟩ := index_of_load load names
  have legible {s : TypeExpr.Scope} {x : String} {t : Ty} (index : s.index = c.world.index)
      (params : ∀ p ∈ s.params, IsWords p) (read : TypeExpr.read s x = .ok t) : Legible t := by
    obtain ⟨e, -, plain, means⟩ := TypeExpr.read_eq_ok read
    exact TypeExpr.legible_resolve (index ▸ sound) (index ▸ rows) (fun p hp => unmarked_of_isWords (params p hp)) plain
      means
  have ha := legible index params ha
  have hb := legible index' params' hb
  exact ⟨alike_of_key_eq ha hb, fun alike => key_eq_of_alike alike ha hb⟩

def boxesAndPair : List TypeDraft :=
  [{ kind := "class", name := "P.Box" }, { kind := "class", name := "P.Box", typeParameters := ["T"] },
    { kind := "class", name := "P.Pair", typeParameters := ["A", "B"] }]

/-- A box of an array of pairs, in the namespace and outside it; and a box with the brackets in another place. -/
theorem alike_boxes : ∃ c a b d, ofDocument Prelude.types "" { types := boxesAndPair.map some } = .ok c ∧
    TypeExpr.read (scopeIn c.world ["T"] "P") "Box<Pair<Box, T[]>[]>" = .ok a ∧
    TypeExpr.read (scopeIn c.world ["T"] "") "P.Box<P.Pair<P.Box,T[]>[]>" = .ok b ∧
    TypeExpr.read (scopeIn c.world ["T"] "P") "Box<Pair<Box, T>[][]>" = .ok d ∧ Alike a b ∧ ¬ Alike a d := by
  have loaded : ((ofDocument Prelude.types "" { types := boxesAndPair.map some }).toOption.map fun c =>
      [(TypeExpr.read (scopeIn c.world ["T"] "P") "Box<Pair<Box, T[]>[]>").toOption.map key,
        (TypeExpr.read (scopeIn c.world ["T"] "") "P.Box<P.Pair<P.Box,T[]>[]>").toOption.map key,
        (TypeExpr.read (scopeIn c.world ["T"] "P") "Box<Pair<Box, T>[][]>").toOption.map key]) =
      some [some "P.Box<P.Pair<P.Box,!T[]>[]>", some "P.Box<P.Pair<P.Box,!T[]>[]>",
        some "P.Box<P.Pair<P.Box,!T>[][]>"] := by
    decide +kernel
  have names : ∀ d, some d ∈ [] ++ boxesAndPair.map some → IsWords d.name := by
    intro d hd
    obtain ⟨d', hd', same⟩ := mem_map.mp hd
    cases same
    have all : ∀ d ∈ boxesAndPair, IsWords d.name := by decide
    exact all d hd'
  have found {r : Except Fault Ty} {k : String} (h : r.toOption.map key = some k) : ∃ t, r = .ok t ∧ t.key = k := by
    cases r with
    | error fault => cases h
    | ok t => exact ⟨t, rfl, Option.some.inj h⟩
  have params : ∀ p ∈ ["T"], IsWords p := by decide
  cases load : ofDocument Prelude.types "" { types := boxesAndPair.map some } with
  | error fault =>
    rw [load] at loaded
    cases loaded
  | ok c =>
    rw [load] at loaded
    obtain ⟨first, loaded⟩ := cons.inj (Option.some.inj loaded)
    obtain ⟨second, loaded⟩ := cons.inj loaded
    obtain ⟨a, ha, keyA⟩ := found first
    obtain ⟨b, hb, keyB⟩ := found second
    obtain ⟨d, hd, keyD⟩ := found (cons.inj loaded).1
    refine ⟨c, a, b, d, rfl, ha, hb, hd, ?_, ?_⟩
    · exact (key_eq_iff_alike load names rfl rfl params params ha hb).mp (keyA.trans keyB.symm)
    · rw [← key_eq_iff_alike load names rfl rfl params params ha hd, keyA, keyD]
      decide +kernel

end Compilation

end Polyglot
