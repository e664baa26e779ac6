import Polyglot.Declare.Cpp
import Polyglot.Declare.Rust
import Polyglot.Declare.TypeScript
import Polyglot.Proofs.ArtifactPaths

/-!
# Imports reach the files they name

TypeScript takes the way from the importing file to the imported one, up through directories and down again; C++ takes the path
of the header; Rust takes the parts of the path as a module path. Each of them leads to the file of the imported type. For
TypeScript that is an inverse law: walking along `relativeModule` from the directory of a file (`Path.resolve?`) ends at the
module.
-/

namespace Polyglot

open Text List

namespace Path

/-! ## Walking along a specifier -/

/-- A relative path that says where a file is as it stands: no part is empty, a dot or two dots. -/
def IsClean (path : String) : Prop := ∀ part ∈ Text.split '/' path, part ≠ "" ∧ part ≠ "." ∧ part ≠ ".."

instance (path : String) : Decidable (IsClean path) := inferInstanceAs (Decidable (∀ part ∈ _, _))

/-- From a directory along some steps: a dot stays, two dots go up, and a name goes down. Above the first directory
there is nothing. -/
def walk? : (directory : List String) → List String → Option (List String)
  | directory, [] => some directory
  | directory, step :: steps =>
    if step = "." then walk? directory steps
    else if step = ".." then if directory = [] then none else walk? directory.dropLast steps
    else walk? (directory ++ [step]) steps

/-- **The module that a specifier means** in the file at a path. -/
def resolve? (origin specifier : String) : Option String :=
  (walk? (Text.split '/' origin).dropLast (Text.split '/' specifier)).map (Text.join "/")

variable {start steps shared up : List String} {origin : String}

theorem walk?_down (plain : ∀ step ∈ steps, step ≠ "." ∧ step ≠ "..") : walk? start steps = some (start ++ steps) := by
  induction steps generalizing start with
  | nil => simp [walk?]
  | cons step steps ih =>
    obtain ⟨dot, dots⟩ := plain step mem_cons_self
    rw [walk?, if_neg dot, if_neg dots, ih fun s hs => plain s (mem_cons_of_mem _ hs)]
    simp

theorem walk?_up (n : Nat) (length : up.length = n) :
    walk? (shared ++ up) (replicate n ".." ++ steps) = walk? shared steps := by
  induction n generalizing up with
  | zero =>
    obtain rfl := length_eq_zero_iff.mp length
    simp
  | succ n ih =>
    have some : up ≠ [] := by
      rintro rfl
      cases length
    have shorter : up.dropLast.length = n := by rw [length_dropLast, length, Nat.add_sub_cancel]
    rw [replicate_succ, cons_append, walk?, if_neg (by decide), if_pos rfl, if_neg (by simp [some]),
      dropLast_append_of_ne_nil some, ih shorter]

/-! ## The way to a module -/

theorem dropShared_eq (as bs : List String) :
    ∃ shared, as = shared ++ (dropShared as bs).1 ∧ bs = shared ++ (dropShared as bs).2 := by
  fun_induction dropShared as bs with
  | case1 as b bs ih =>
    obtain ⟨shared, left, right⟩ := ih
    exact ⟨b :: shared, congrArg (b :: ·) left, congrArg (b :: ·) right⟩
  | case2 | case3 => exact ⟨[], rfl, rfl⟩

theorem not_hasLead_of_isClean {path : String} (clean : IsClean path) : hasLead "/" path = false := by
  cases chars : path.toList with
  | nil => simp [hasLead, chars, afterChars?]
  | cons c cs =>
    have other : c ≠ '/' := by
      rintro rfl
      have first : "" ∈ Text.split '/' path := by simp [Text.split, chars, splitChars]
      exact (clean "" first).1 rfl
    simp [hasLead, chars, afterChars?, Ne.symm other]

/-- The directory of a clean path is made of the parts before the last one. -/
theorem directory_parts (clean : IsClean origin) :
    (if directory origin = "." then [] else Text.split '/' (directory origin)) = (Text.split '/' origin).dropLast := by
  unfold Path.directory
  cases cut : cutLast? '/' origin with
  | none => simp [split_of_not_mem (cutLast?_eq_none cut)]
  | some parts =>
    obtain ⟨front, last⟩ := parts
    obtain ⟨whole, alone⟩ := cutLast?_eq_some cut
    have parts : Text.split '/' origin = Text.split '/' front ++ [last] := by
      rw [split_append_sep whole, split_of_not_mem alone]
    have cleanFront : IsClean front := fun p hp => clean p (parts ▸ mem_append_left _ hp)
    have ended : Text.split '/' (front ++ "/") = Text.split '/' front ++ [""] :=
      split_append_sep (b := "") (by simp)
    have relative : hasLead "/" (front ++ "/") = false := by
      cases chars : front.toList with
      | nil =>
        have empty : "" ∈ Text.split '/' front := by simp [Text.split, chars, splitChars]
        exact absurd rfl (cleanFront "" empty).1
      | cons c cs =>
        have lead := not_hasLead_of_isClean cleanFront
        simp only [hasLead, chars, String.toList_append] at lead ⊢
        simpa [afterChars?] using lead
    have directory : Path.clean (front ++ "/") = front := by
      simp only [Path.clean, relative, ended, cleanParts_append cleanFront, append_nil, cleanParts, Bool.true_or, decide_true,
        if_true, reverse_reverse]
      rw [if_neg (by simp), if_neg (by simpa using split_ne_nil '/' front), join_split]
    have ne : front ≠ "." := by
      rintro rfl
      exact (cleanFront "." (by decide)).2.1 rfl
    rw [parts, dropLast_concat]
    simp only [directory, if_neg ne]

theorem split_repeated_up (n : Nat) (rest : String) :
    Text.split '/' (Text.repeated "../" n ++ rest) = replicate n ".." ++ Text.split '/' rest := by
  induction n with
  | zero => simp [Text.repeated]
  | succ n ih =>
    have chars : (Text.repeated "../" (n + 1) ++ rest).toList =
        "..".toList ++ '/' :: (Text.repeated "../" n ++ rest).toList := by
      simp [Text.repeated]
    rw [split_append_sep chars, ih]
    rfl

/-- **A specifier leads to its module**: it begins with a step that stays or goes up, and walking along it from the
directory of the file ends at the module. -/
theorem resolve?_relativeModule {module : String} (clean : IsClean origin)
    (plain : ∀ part ∈ Text.split '/' module, part ≠ "." ∧ part ≠ "..") :
    (∃ rest, relativeModule origin module = "./" ++ rest ∨ relativeModule origin module = "../" ++ rest) ∧
      resolve? origin (relativeModule origin module) = some module := by
  have target : (Text.split '/' module).dropLast ++ [(Text.split '/' module).getLast?.getD ""] =
      Text.split '/' module := by
    rw [getLast?_eq_some_getLast (split_ne_nil _ _), Option.getD_some, dropLast_append_getLast]
  obtain ⟨shared, own, other⟩ := dropShared_eq (Text.split '/' origin).dropLast (Text.split '/' module).dropLast
  unfold resolve? relativeModule
  dsimp only
  rw [directory_parts clean]
  generalize dropShared (Text.split '/' origin).dropLast (Text.split '/' module).dropLast = ways at own other ⊢
  obtain ⟨up, down⟩ := ways
  generalize (Text.split '/' module).getLast?.getD "" = last at target ⊢
  have whole : shared ++ (down ++ [last]) = Text.split '/' module := by
    rw [← target, other, append_assoc]
  have inside : ∀ part ∈ down ++ [last], part ∈ Text.split '/' module := fun part hp =>
    whole ▸ mem_append_right _ hp
  have steps : Text.split '/' (Text.join "/" (down ++ [last])) = down ++ [last] :=
    split_join (by simp) fun part hp => not_mem_of_mem_split (inside part hp)
  have arrives : walk? shared (down ++ [last]) = some (Text.split '/' module) := by
    rw [walk?_down fun part hp => plain part (inside part hp), whole]
  rw [own]
  cases up with
  | nil =>
    refine ⟨⟨Text.join "/" (down ++ [last]), .inl ?_⟩, ?_⟩
    · simp [Text.repeated]
    · have chars : ("./" ++ Text.repeated "../" 0 ++ Text.join "/" (down ++ [last])).toList =
          ".".toList ++ '/' :: (Text.join "/" (down ++ [last])).toList := by
        simp [Text.repeated]
      rw [isEmpty_nil, if_pos rfl, length_nil, split_append_sep chars, steps, append_nil]
      rw [show Text.split '/' "." = ["."] from rfl, singleton_append, walk?, if_pos rfl, arrives, Option.map_some, join_split]
  | cons first more =>
    refine ⟨⟨Text.repeated "../" more.length ++ Text.join "/" (down ++ [last]), .inr ?_⟩, ?_⟩
    · simp [Text.repeated, String.append_assoc]
    · simp only [isEmpty_cons, Bool.false_eq_true, if_false, String.empty_append]
      rw [split_repeated_up, steps, walk?_up _ rfl, arrives, Option.map_some, join_split]

/-! ## Files with a suffix -/

/-- Nothing takes the last part of a path away, unless it is empty or made of dots. -/
theorem cleanParts_last (isRooted : Bool) {last : String} (empty : last ≠ "") (dot : last ≠ ".") (dots : last ≠ "..")
    (parts done : List String) : ∃ before, cleanParts isRooted done (parts ++ [last]) = before ++ [last] := by
  induction parts generalizing done with
  | nil =>
    refine ⟨done.reverse, ?_⟩
    rw [nil_append, cleanParts.eq_def]
    dsimp only
    rw [if_neg (by simp [empty, dot]), if_neg dots, cleanParts, reverse_cons]
  | cons part parts ih =>
    rw [cons_append, cleanParts.eq_def]
    dsimp only
    split
    · exact ih done
    · split
      · split <;> exact ih _
      · exact ih _

/-- **A file keeps its suffix**: the path without it ends in the last part of the file's name. -/
theorem join_file {directories : List String} {name suffix : String} (slash : '/' ∉ suffix.toList)
    (long : 2 < suffix.length) (clean : IsClean (join (directories ++ [name ++ suffix]))) :
    ∃ before last, join (directories ++ [name ++ suffix]) = Text.join "/" (before ++ [last]) ++ suffix ∧
      last ∈ Text.split '/' name := by
  obtain ⟨front, last, parts, file⟩ := split_append_tail name slash
  have ne {s : String} (short : s.length ≤ 2) : last ++ suffix ≠ s := by
    rintro rfl
    rw [String.length_append] at short
    omega
  have nonempty : name ++ suffix ≠ "" := by
    intro none
    have length := congrArg String.length none
    rw [String.length_append, String.length_empty] at length
    omega
  obtain ⟨kept, drops⟩ : ∃ kept, (directories ++ [name ++ suffix]).dropWhile (· = "") = kept ++ [name ++ suffix] := by
    rw [dropWhile_append]
    split
    · exact ⟨[], by simp [nonempty]⟩
    · exact ⟨_, rfl⟩
  obtain ⟨lead, split⟩ := split_join_last kept (name ++ suffix)
  rw [file, ← append_assoc] at split
  have relative := not_hasLead_of_isClean clean
  simp only [join, drops, Path.clean, split] at relative ⊢
  obtain ⟨before, cleaned⟩ := cleanParts_last (hasLead "/" (Text.join "/" (kept ++ [name ++ suffix])))
    (ne (by decide)) (ne (by decide)) (ne (by decide)) (lead ++ front) []
  rw [cleaned] at relative ⊢
  rw [if_neg (by simp)] at relative ⊢
  split at relative
  · simp [hasLead, afterChars?] at relative
  · next unrooted =>
    refine ⟨before, last, ?_, by simp [parts]⟩
    rw [if_neg unrooted, if_neg (by simp), join_append_last]

end Path

namespace Target

variable {t : Target} {idx : TypeIndex} {h : TypeHead}

theorem dot_not_mem_emittedName (name : '.' ∉ h.name.toList) : '.' ∉ (emittedName h).2.toList := by
  unfold emittedName
  split
  · exact name
  · cases cut : cutLast? '.' h.rename with
    | none => exact cutLast?_eq_none cut
    | some parts => exact (cutLast?_eq_some cut).2

/-- A type that has no library name is declared under a name without dots. -/
theorem dot_not_mem_declaredName (own : t.external? h.key = none) (name : '.' ∉ h.name.toList) :
    '.' ∉ (t.declaredName idx h).toList := by
  have suffix : '.' ∉ (aritySuffix idx h).toList := fun mem =>
    absurd (isDigit_of_mem_aritySuffix mem) (by decide)
  rw [declaredName, own]
  dsimp only
  split
  · simpa using dot_not_mem_emittedName name
  · simpa using ⟨dot_not_mem_emittedName name, suffix⟩

/-- **The module of a type's file**: the path without the suffix. -/
theorem exists_module {kind : ArtifactKind} (slash : '/' ∉ (t.suffix kind).toList) (long : 2 < (t.suffix kind).length)
    (clean : Path.IsClean (t.artifactPath idx h kind)) : ∃ module, t.artifactPath idx h kind = module ++ t.suffix kind ∧
      ('.' ∉ (t.baseFileName (t.fileName idx h)).toList → ∀ part ∈ Text.split '/' module, part ≠ "." ∧ part ≠ "..") := by
  rw [artifactPath_eq] at clean ⊢
  obtain ⟨before, last, path, mem⟩ := Path.join_file slash long clean
  refine ⟨_, path, fun dot part hp => ?_⟩
  obtain ⟨front, end', whole, longer⟩ := split_append_tail (Text.join "/" (before ++ [last])) slash
  obtain ⟨lead, ends⟩ := split_join_last before last
  rw [split_of_not_mem (not_mem_of_mem_split mem), whole] at ends
  obtain ⟨rfl, same⟩ := append_inj' ends rfl
  rw [whole] at hp
  rcases mem_append.mp hp with hp | hp
  · have := clean part (by rw [path, longer]; exact mem_append_left _ hp)
    exact this.2
  · rw [mem_singleton.mp hp, singleton_inj.mp same]
    have free : '.' ∉ last.toList := fun mem' => dot (mem_of_mem_split mem mem')
    refine ⟨?_, ?_⟩ <;> rintro rfl <;> exact free (by decide)

/-- The files of TypeScript have no dot before their suffix. -/
theorem dot_not_mem_typescriptFile (name : '.' ∉ h.name.toList) :
    '.' ∉ (typescript.baseFileName (typescript.fileName idx h)).toList := by
  have file : typescript.fileName idx h = typescript.declaredName idx h := String.append_empty
  rw [file]
  cases own : typescript.external? h.key with
  | none => exact dot_not_mem_declaredName own name
  | some library =>
    rw [declaredName, own]
    exact (typescript.isPlain_externals _ (mem_of_lookup own)).dot

end Target

namespace Compilation

/-- **Imports reach the files they name.** For a declared type, the specifier in a TypeScript file leads from the
directory of that file to the type's file without its suffix, the line of C++ includes the type's header, and the path
in Rust consists of the parts of the path to the type's file, without its suffix, and the type's name. -/
theorem imports_reach_files {prelude : List TypeDraft} {file : String} {doc : Document} {c : Compilation}
    (load : ofDocument prelude file doc = .ok c) {d : TypeDecl} (hd : d ∈ c.types) :
    (∀ (s : Scene) (b : Artifact), s.target = .typescript → s.world = c.world →
      b ∈ Target.typescript.artifacts c.world.index d.head → Path.IsClean s.artifact.path → Path.IsClean b.path →
      ∃ module specifier, b.path = module ++ ".ts" ∧ specifier = Path.relativeModule s.artifact.path module ∧
        (∃ rest, specifier = "./" ++ rest ∨ specifier = "../" ++ rest) ∧
        Path.resolve? s.artifact.path specifier = some module ∧
        (Target.typescript.external? d.head.key = none → ∀ full sheet,
          Emit.typescriptImport ⟨d.head, full⟩ s sheet =
            (.ok (some ((if full then "import" else "import type") ++ " \x7b " ++
              Target.typescript.declaredName c.world.index d.head ++ " \x7d from \"" ++ specifier ++ "\";")), sheet))) ∧
    (∀ (s : Scene) (b : Artifact), s.target = .cpp → s.world = c.world →
      b ∈ Target.cpp.artifacts c.world.index d.head → b.kind = .declaration →
      Target.cpp.external? d.head.key = none → ∀ sheet,
        Emit.cppInclude? d.head s sheet = (.ok (some ("#include \"" ++ b.path ++ "\"")), sheet)) ∧
    (∀ (s : Scene) (b : Artifact), s.target = .rust → s.world = c.world →
      b ∈ Target.rust.artifacts c.world.index d.head → Path.IsClean b.path →
      Target.rust.external? d.head.key = none →
      ∃ module, b.path = module ++ ".rs" ∧ ∀ full sheet,
        Emit.rustImport ⟨d.head, full⟩ s sheet =
          (.ok (some ("use crate::" ++ Text.join "::" (Text.split '/' module ++
            [Target.rust.declaredName c.world.index d.head]) ++ ";")), sheet)) := by
  have name := dot_not_mem_of_load load hd
  refine ⟨?_, ?_, ?_⟩
  · intro s b target world hb clean clean'
    rw [Target.artifacts_eq] at hb
    obtain ⟨kind, hk, rfl⟩ := mem_map.mp hb
    obtain rfl := mem_singleton.mp hk
    obtain ⟨module, path, plain⟩ := Target.exists_module (by decide) (by decide) clean'
    obtain ⟨leads, arrives⟩ := Path.resolve?_relativeModule clean (plain (Target.dot_not_mem_typescriptFile name))
    refine ⟨module, _, path, rfl, leads, arrives, fun own full sheet => ?_⟩
    have trimmed : Text.dropTail ".ts" (Target.typescript.artifactPath c.world.index d.head .source) = module := by
      rw [path]
      exact Text.dropTail_append module ".ts"
    rw [Emit.typescriptImport, own, ← trimmed, ← target, ← world]
    rfl
  · intro s b target world hb kind own sheet
    rw [Target.artifacts_eq] at hb
    obtain ⟨kind', hk, rfl⟩ := mem_map.mp hb
    dsimp only at kind
    rw [Emit.cppInclude?, own, kind, ← target, ← world]
    rfl
  · intro s b target world hb clean own
    rw [Target.artifacts_eq] at hb
    obtain ⟨kind, hk, rfl⟩ := mem_map.mp hb
    obtain rfl := mem_singleton.mp hk
    dsimp only at clean ⊢
    obtain ⟨module, path, -⟩ := Target.exists_module (by decide) (by decide) clean
    refine ⟨module, path, fun full sheet => ?_⟩
    have trimmed : Text.dropTail ".rs" (Target.rust.artifactPath c.world.index d.head .source) = module := by
      rw [path]
      exact Text.dropTail_append module ".rs"
    rw [Text.join_concat _ _ (Text.split_ne_nil _ _), ← Text.replaceChar_eq_join, Emit.rustImport, own, ← trimmed,
      ← target, ← world]
    simp only [String.append_assoc]
    rfl

def hereDraft : TypeDraft := { kind := "class", name := "A.B.Here" }

/-- A class in a directory beside that one, one level deeper. -/
def thereDraft : TypeDraft := { kind := "class", name := "A.C.D.There" }

/-- From the one class the way to the other goes up once and down twice. -/
theorem imports_reach_files_beside :
    ∃ c d, ofDocument Prelude.types "" { types := [hereDraft, thereDraft].map some } = .ok c ∧ d ∈ c.types ∧
      (Target.typescript.artifacts c.world.index d.head).map (·.path) = ["A/C/D/There.ts"] ∧
      Path.resolve? "A/B/Here.ts" (Path.relativeModule "A/B/Here.ts" "A/C/D/There") = some "A/C/D/There" := by
  have paths : (ofDocument Prelude.types "" { types := [hereDraft, thereDraft].map some }).toOption.map (fun c =>
      c.types.map fun d => (Target.typescript.artifacts c.world.index d.head).map (·.path)) =
        some [["A/B/Here.ts"], ["A/C/D/There.ts"]] := by
    decide +kernel
  cases load : ofDocument Prelude.types "" { types := [hereDraft, thereDraft].map some } with
  | error fault =>
    rw [load] at paths
    cases paths
  | ok c =>
    rw [load] at paths
    have listed : c.types.map (fun d => (Target.typescript.artifacts c.world.index d.head).map (·.path)) =
        [["A/B/Here.ts"], ["A/C/D/There.ts"]] := Option.some.inj paths
    obtain ⟨d, hd, path⟩ := mem_map.mp (listed ▸ mem_cons_of_mem _ mem_cons_self)
    obtain ⟨b, hb, single⟩ := map_eq_singleton_iff.mp path
    let s : Scene :=
      { target := .typescript, world := c.world, templates := {}, decl := d, artifact := ⟨.source, "A/B/Here.ts"⟩ }
    have clean : Path.IsClean "A/B/Here.ts" ∧ Path.IsClean "A/C/D/There.ts" := by decide
    obtain ⟨module, _, suffix, rfl, -, arrives, -⟩ :=
      (imports_reach_files load hd).1 s b rfl rfl (by simp [hb]) clean.1 (single ▸ clean.2)
    obtain rfl : module = "A/C/D/There" := by
      rw [single] at suffix
      rw [← Text.dropTail_append module ".ts", ← suffix]
      decide
    exact ⟨c, d, rfl, hd, path, arrives⟩

end Compilation

end Polyglot
