import Polyglot.Proofs.ModulePaths
import Polyglot.Proofs.Writing.Text

/-!
# Import lines and what they import

A file in Java or C# begins with lines that say which namespace it is in and which others it needs. The lines of one
file are written from the types that it notes, and the namespace and the name of a type are written in the file of that
type: so the two files have to agree.
-/

namespace Polyglot

open Text List

/-! ## Lines of a text -/

namespace Text

def IsLines (text : String) : Prop := text = "" ∨ endsLine text = true

/-- The text has the line, between line breaks. -/
def HasLine (line text : String) : Prop := ∃ front rest, text = front ++ line ++ "\n" ++ rest ∧ IsLines front

def ofLines : List String → String
  | [] => ""
  | line :: lines => line ++ "\n" ++ ofLines lines

theorem endsLine_append_break (s : String) : endsLine (s ++ "\n") = true := by
  rw [endsLine]
  simp

theorem IsLines.append {a b : String} (ha : IsLines a) (hb : IsLines b) : IsLines (a ++ b) := by
  obtain rfl | hb := hb
  · rw [String.append_empty]
    exact ha
  · refine .inr ?_
    rw [endsLine, decide_eq_true_eq] at hb ⊢
    rw [String.toList_append, getLast?_append, hb]
    rfl

theorem isLines_ofLines (lines : List String) : IsLines (ofLines lines) := by
  induction lines with
  | nil => exact .inl rfl
  | cons line lines ih => exact IsLines.append (.inr (endsLine_append_break line)) ih

theorem ofLines_append (a b : List String) : ofLines (a ++ b) = ofLines a ++ ofLines b := by
  induction a with
  | nil => rw [nil_append, ofLines, String.empty_append]
  | cons line a ih => simp only [cons_append, ofLines, ih, String.append_assoc]

variable {line text : String}

theorem HasLine.append (h : HasLine line text) (more : String) : HasLine line (text ++ more) := by
  obtain ⟨front, rest, rfl, start⟩ := h
  exact ⟨front, rest ++ more, String.append_assoc, start⟩

theorem HasLine.behind {front : String} (h : HasLine line text) (lines : IsLines front) :
    HasLine line (front ++ text) := by
  obtain ⟨inner, rest, rfl, start⟩ := h
  exact ⟨front ++ inner, rest, by simp only [String.append_assoc], lines.append start⟩

theorem hasLine_ofLines {lines : List String} (h : line ∈ lines) : HasLine line (ofLines lines) := by
  obtain ⟨front, rest, rfl⟩ := append_of_mem h
  rw [ofLines_append, ofLines]
  refine HasLine.behind ⟨"", ofLines rest, ?_, .inl rfl⟩ (isLines_ofLines front)
  rw [String.empty_append]

/-- A line is one of the pieces between the breaks. -/
theorem HasLine.mem_split (h : HasLine line text) (whole : '\n' ∉ line.toList) : line ∈ split '\n' text := by
  obtain ⟨front, rest, rfl, start⟩ := h
  have cut : split '\n' (front ++ line ++ "\n" ++ rest) = split '\n' (front ++ line) ++ split '\n' rest :=
    split_append_sep (by simp)
  rw [cut]
  refine mem_append_left _ ?_
  obtain rfl | ends := start
  · rw [String.empty_append, split_of_not_mem whole]
    exact mem_singleton.mpr rfl
  · rw [endsLine, decide_eq_true_eq] at ends
    obtain ⟨init, chars⟩ := getLast?_eq_some_iff.mp ends
    have lines : split '\n' (front ++ line) = split '\n' (String.ofList init) ++ split '\n' line :=
      split_append_sep (by rw [String.toList_append, chars]; simp)
    rw [lines, split_of_not_mem whole]
    exact mem_append_right _ (mem_singleton.mpr rfl)

end Text

namespace Emit

variable {α β : Type} {scene : Scene} {sheet : Sheet}

/-! ## Heads of files -/

theorem lineAt_zero (s : String) : lineAt scene 0 s = ofLines [s] := by
  have one : ofLines [s] = s ++ "\n" := by rw [ofLines, ofLines, String.append_empty]
  rw [one, lineAt, lineOn, indented, repeated, String.empty_append, ite_self]

def put (sheet : Sheet) (lines : List String) : Sheet :=
  { sheet with writer := sheet.writer.extended 0 (ofLines lines) }

theorem put_put (sheet : Sheet) (a b : List String) : put (put sheet a) b = put sheet (a ++ b) := by
  simp only [put, Writer.extended_extended, ofLines_append]

section

variable (start : sheet.writer.AtLine scene.target.dialect.indent 0)
include start

theorem put_nil : put sheet [] = sheet := by
  rw [put, ofLines, Writer.extended_empty start]

theorem line_apply (s : String) : line s scene sheet = (.ok (), put sheet [s]) := by
  have run : line s scene sheet = (.ok (), { sheet with writer := sheet.writer.writeLine s }) := rfl
  rw [run, Writer.writeLine_extended start, ← lineAt, lineAt_zero, put]

theorem blankLine_apply : blankLine scene sheet = (.ok (), put sheet [""]) := by
  have run : blankLine scene sheet = (.ok (), { sheet with writer := sheet.writer.blankLine }) := rfl
  rw [run, Writer.blankLine_extended start]
  rfl

theorem lines_apply (ls : List String) : lines ls scene sheet = (.ok (), put sheet ls) := by
  induction ls generalizing sheet with
  | nil =>
    rw [put_nil start]
    rfl
  | cons s ls ih =>
    have run : lines (s :: ls) = line s >>= fun _ => lines ls := forM_cons
    rw [run, bind_ok (line_apply start s), ih (start.extended _), put_put]
    rfl

/-- Some lines, and an empty one behind them; nothing when there are none. -/
def paragraph (ls : List String) : List String := if ls.isEmpty then [] else ls ++ [""]

theorem paragraph_apply (names : List String) (f : String → String) (next : Unit → Emit Unit) :
    (lines (names.map f) >>= fun _ => if !names.isEmpty then blankLine >>= next else next ()) scene sheet
      = next () scene (put sheet (paragraph (names.map f))) := by
  rw [bind_ok (lines_apply start _)]
  cases names with
  | nil => rfl
  | cons name names =>
    change (blankLine >>= next) scene (put sheet ((name :: names).map f)) = _
    rw [bind_ok (blankLine_apply (start.extended _)), put_put]
    rfl

/-- A line that says which namespace a file is in, if it is in one. -/
def spaceLines (word space : String) : List String := if space = "" then [] else [word ++ space ++ ";", ""]

theorem spaceLines_apply (word space : String) (next : Unit → Emit Unit) :
    (if space ≠ "" then line (word ++ space ++ ";") >>= fun _ => blankLine >>= next else next ()) scene sheet
      = next () scene (put sheet (spaceLines word space)) := by
  rw [spaceLines]
  by_cases none : space = ""
  · rw [if_neg (not_not.mpr none), if_pos none, put_nil start]
  · rw [if_pos none, if_neg none, bind_ok (line_apply start _), bind_ok (blankLine_apply (start.extended _)), put_put]
    rfl

def javaNames (scene : Scene) (imports : Imports) (required : List String) : List String :=
  let own := Target.namespaceName .java scene.decl.space
  sorted (((imports.entries.map fun i => javaImport scene.world.index i.head).filter (javaNeedsImport own)) ++
    sorted required).eraseDups

def javaLines (scene : Scene) (imports : Imports) (required : List String) : List String :=
  spaceLines "package " (Target.namespaceName .java scene.decl.space) ++
    paragraph ((javaNames scene imports required).map fun name => "import " ++ name ++ ";")

theorem javaHead_apply : javaHead scene sheet = (.ok (), put sheet (javaLines scene sheet.imports sheet.requirements)) := by
  rw [javaHead, bind_ok (show decl scene sheet = (.ok scene.decl, sheet) from rfl)]
  refine (spaceLines_apply start _ _ _).trans ?_
  rw [javaLines, ← put_put]
  exact paragraph_apply (start.extended _) (javaNames scene sheet.imports sheet.requirements) _ pure

/-- The namespaces that a file in C# uses. -/
def csharpSpaces (scene : Scene) (imports : Imports) (required : List String) : List String :=
  csharpUsings scene.decl.space imports.entries (sorted required)

def csharpLines (scene : Scene) (imports : Imports) (required : List String) : List String :=
  paragraph ((csharpSpaces scene imports required).map fun space => "using " ++ space ++ ";") ++
    spaceLines "namespace " scene.decl.space

theorem csharpHead_apply :
    csharpHead scene sheet = (.ok (), put sheet (csharpLines scene sheet.imports sheet.requirements)) := by
  rw [csharpLines, ← put_put]
  refine (paragraph_apply start (csharpSpaces scene sheet.imports sheet.requirements) _ _).trans ?_
  exact spaceLines_apply (start.extended _) "namespace " scene.decl.space pure

end

/-! ## The name in a declaration -/

def NamedIn (name text : String) : Prop := ∃ front rest, HasLine (front ++ " " ++ name ++ rest) text

/-- What is left behind what is there names something. -/
abbrev Names (scene : Scene) (name : String) (x : Emit Unit) : Prop := Leaves scene (fun _ _ => NamedIn name) x

variable {r : Emitter} {name : String} {x : Emit α}

theorem NamedIn.behind {text front : String} (h : NamedIn name text) (lines : IsLines front) :
    NamedIn name (front ++ text) := by
  obtain ⟨before, rest, line⟩ := h
  exact ⟨before, rest, line.behind lines⟩

/-- Something that is read without a change. -/
theorem Names.reads {f : α → Emit Unit} {a : α} (reads : ∀ sheet, x scene sheet = (.ok a, sheet))
    (next : Names scene name (f a)) : Names scene name (x >>= f) := by
  intro sheet sheet' start run
  rw [bind_ok (reads sheet)] at run
  exact next sheet sheet' start run

theorem Names.silent {f : α → Emit Unit} (silent : Silent x) (next : ∀ a, Names scene name (f a)) :
    Names scene name (x >>= f) := by
  intro sheet sheet' start run
  obtain ⟨a, inner, computed, rest⟩ := bind_eq_ok run
  have kept := silent scene sheet
  rw [computed] at kept
  rw [← kept] at start ⊢
  exact next a inner sheet' start rest

variable {f : Unit → Emit Unit} {head : String} {imports : Imports} {required : List String} {sheet' : Sheet}

theorem Names.behind (s : String) (next : Names scene name (f ())) : Names scene name (line s >>= f) := by
  intro sheet sheet' start run
  rw [bind_ok (line_apply start s)] at run
  obtain ⟨text, named, added, written⟩ := next _ sheet' (start.extended _) run
  refine ⟨ofLines [s] ++ text, named.behind (isLines_ofLines [s]), (Writer.extends_extended _ 0 _).trans added, ?_⟩
  rw [written, ← String.append_assoc]
  rfl

/-- What is written further on takes nothing away. -/
theorem Names.bind {x : Emit Unit} (first : Names scene name x) (next : Grows (f ())) : Names scene name (x >>= f) := by
  intro sheet sheet' start run
  obtain ⟨_, inner, one, two⟩ := bind_eq_ok run
  obtain ⟨text, ⟨front, rest, line⟩, added, written⟩ := first sheet inner start one
  have further := next scene inner
  rw [two] at further
  obtain ⟨more, writtenOn⟩ := further.text
  refine ⟨text ++ more, ⟨front, rest, line.append more⟩, added.trans further, ?_⟩
  rw [writtenOn, written, String.append_assoc]

section

variable (front rest : String) (h : head = front ++ " " ++ name ++ rest)
include h

theorem names_line : Names scene name (line head) := by
  refine Adds.leaves ((adds_line head).mono ?_)
  rintro _ rfl
  rw [lineAt_zero, h]
  exact ⟨front, rest, hasLine_ofLines (mem_singleton.mpr rfl)⟩

theorem names_openBlock : Names scene name (openBlock head) := by
  have some : head ≠ "" := by
    rintro rfl
    have chars := congrArg String.toList h
    simp at chars
  unfold openBlock
  rw [if_neg some]
  refine .reads (fun _ => rfl) ?_
  split
  · exact (names_line front rest h).bind ((grows_line _).bind fun _ => Writes.grows fun _ => writes_indent)
  · refine (names_line front (rest ++ " \x7b") ?_).bind (Writes.grows fun _ => writes_indent)
    rw [h, String.append_assoc]

theorem names_braces {inside : Emit Unit} (grows : Grows inside) :
    Names scene name (do openBlock head; inside; closeBlock; endLine) :=
  (names_openBlock front rest h).bind (grows.bind fun _ => grows_closing)

end

theorem append_word {word short : String} (h : word = short ++ " ") (front name : String) :
    front ++ word ++ name = front ++ short ++ " " ++ name ++ "" := by
  rw [h, String.append_empty, String.append_assoc, String.append_assoc, String.append_assoc, String.append_assoc]

def declaredText (scene : Scene) : String :=
  scene.target.declaredName scene.world.index scene.decl.head ++ Target.argumentList scene.decl.head.params

theorem names_javaClass (parts : r.Disciplined) (access name : String) :
    Names scene name (javaClass r access name) := by
  refine .reads (fun _ => rfl) (.reads (fun _ => rfl) ?_)
  dsimp only
  split
  case' h_2 => refine .silent (keeps_typeName _ _) fun _ => ?_
  all_goals
    refine .reads (fun _ => rfl) (.reads (fun _ => rfl) (.silent (.mapM (fun t => keeps_typeName _ _) _) fun _ => ?_))
    exact names_braces _ _ String.append_assoc (grows_separatedMembers fun m => grows_javaMember parts _ m)

/-- **The declaration in Java names what it declares.** -/
theorem names_javaDeclaration (parts : r.Disciplined) : Names scene (declaredText scene) (javaDeclaration r) := by
  refine .reads (fun _ => rfl) (.reads (fun _ => rfl) (.reads (fun _ => rfl) ?_))
  split
  · refine .reads (fun _ => rfl) ?_
    have head := append_word (show " enum " = " enum" ++ " " by decide) (accessWord "public" scene.decl.symbol)
    refine (names_openBlock _ _ (head _)).bind ((grows_lines _).bind fun _ => ?_)
    split
    · refine grows_blankLine.bind fun _ => (grows_line _).bind fun _ => grows_blankLine.bind fun _ => ?_
      grind
    · exact grows_closing
  · refine .silent silent_invokeOf fun invoke => .silent (silent_javaParameters _) fun parameters => .behind _ ?_
    refine .silent (silent_returnType _) fun type => ?_
    have head := append_word (show " interface " = " interface" ++ " " by decide)
      (accessWord "public" scene.decl.symbol)
    exact names_braces _ _ (head _) (grows_lines _)
  · exact names_javaClass parts _ _

theorem names_csharpClass (parts : r.Disciplined) (access name : String) :
    Names scene name (csharpClass r access name) := by
  refine .reads (fun _ => rfl) (.reads (fun _ => rfl) ?_)
  refine .reads (fun _ => rfl) ?_
  refine .silent (.mapM (fun t => keeps_typeName _ _) _) fun supers => ?_
  exact names_braces _ _ rfl (grows_separatedMembers fun m => grows_csharpMember parts _ m)

/-- **The declaration in C# names what it declares.** -/
theorem names_csharpDeclaration (parts : r.Disciplined) : Names scene (declaredText scene) (csharpDeclaration r) := by
  refine .reads (fun _ => rfl) (.reads (fun _ => rfl) (.reads (fun _ => rfl) ?_))
  split
  · have head := append_word (show " enum " = " enum" ++ " " by decide) (accessWord "internal" scene.decl.symbol)
    exact names_braces _ _ (head _) (grows_lines _)
  · refine .silent silent_invokeOf fun invoke => .silent (silent_csharpParameters parts _) fun parameters => ?_
    refine .silent (silent_returnType _) fun type => ?_
    exact names_line (accessWord "internal" scene.decl.symbol ++ " delegate " ++ type) ("(" ++ parameters ++ ");")
      (by simp only [declaredText, String.append_assoc])
  · exact names_csharpClass parts _ _

/-- The lines before a declaration, in a target whose files are imported by their namespace. -/
def headLines (scene : Scene) (imports : Imports) (required : List String) : List String :=
  match scene.target with
  | .java => javaLines scene imports required
  | _ => csharpLines scene imports required

section

variable (single : scene.target = .java ∨ scene.target = .csharp)
include single

theorem names_fileBody : Names scene (declaredText scene) (fileBody scene.emitter scene) := by
  have parts : scene.emitter.Disciplined := Emitter.within_disciplined _
  unfold fileBody
  rcases single with java | csharp
  · rw [java]
    exact names_javaDeclaration parts
  · rw [csharp]
    exact names_csharpDeclaration parts

theorem leaves_headLines :
    Leaves scene (fun imports required text => text = ofLines (headLines scene imports required)) (fileHead scene) := by
  intro sheet sheet' start run
  have wrote : fileHead scene scene sheet = (.ok (), put sheet (headLines scene sheet.imports sheet.requirements)) := by
    unfold fileHead headLines
    rcases single with java | csharp
    · rw [java]
      exact javaHead_apply start
    · rw [csharp]
      exact csharpHead_apply start
  rw [wrote] at run
  cases run
  exact ⟨_, rfl, Writer.extends_extended _ 0 _, rfl⟩

/-- **The text of a file in Java or C#**: the lines of its head, and a declaration that names what it declares. -/
theorem artifactFile_text (run : artifactFile.runOn scene = (.ok (), sheet')) :
    ∃ body, sheet'.writer.text = ofLines (headLines scene sheet'.imports sheet'.requirements) ++ body ∧
      NamedIn (declaredText scene) body := by
  obtain ⟨_, body, rfl, named, text⟩ := text_artifactFile (names_fileBody single) (leaves_headLines single) run
  exact ⟨body, text, named⟩

end

theorem mem_paragraph {line : String} {ls : List String} (h : line ∈ ls) : line ∈ paragraph ls := by
  rw [paragraph, if_neg]
  · exact mem_append_left _ h
  · intro none
    rw [isEmpty_iff.mp none] at h
    cases h

theorem mem_spaceLines {word space : String} (h : space ≠ "") : word ++ space ++ ";" ∈ spaceLines word space := by
  rw [spaceLines, if_neg h]
  exact mem_cons_self

theorem mem_javaLines (h : name ∈ javaNames scene imports required) :
    "import " ++ name ++ ";" ∈ javaLines scene imports required :=
  mem_append_right _ (mem_paragraph (mem_map.mpr ⟨name, h, rfl⟩))

theorem mem_csharpLines {space : String} (h : space ∈ csharpSpaces scene imports required) :
    "using " ++ space ++ ";" ∈ csharpLines scene imports required :=
  mem_append_left _ (mem_paragraph (mem_map.mpr ⟨space, h, rfl⟩))

end Emit

namespace Target

variable {idx : TypeIndex} {h : TypeHead}

/-! ## Namespaces and lines -/

/-- The namespace in the file of a type. -/
def fileSpace (t : Target) (h : TypeHead) : String :=
  match t with
  | java => java.namespaceName (declaredSpace h)
  | _ => declaredSpace h

def spaceLine (t : Target) (space : String) : String :=
  match t with
  | java => "package " ++ space ++ ";"
  | _ => "namespace " ++ space ++ ";"

/-- The line that imports a type: by its name, or with its namespace. -/
def importLine (t : Target) (space name : String) : String :=
  match t with
  | java => "import " ++ (space ++ "." ++ name) ++ ";"
  | _ => "using " ++ space ++ ";"

/-- The namespace is another one, or one around it. -/
def Encloses (space inner : String) : Prop := inner = space ∨ ∃ rest, inner = space ++ "." ++ rest

/-- Types of a namespace have to be imported into a file that is in another. In Java the types of `java.lang` are always
known, and those of no package cannot be imported. In C# the types of the namespaces around are known. -/
def NeedsImport (t : Target) (own space : String) : Prop :=
  match t with
  | java => space ≠ own ∧ space ≠ "" ∧ space ≠ "java.lang"
  | _ => space ≠ "" ∧ ¬ Encloses space own

/-- **The text declares the type** in its namespace and under its name. -/
def Declares (t : Target) (idx : TypeIndex) (h : TypeHead) (text : String) : Prop :=
  (t.fileSpace h ≠ "" → HasLine (t.spaceLine (t.fileSpace h)) text) ∧
    Emit.NamedIn (t.declaredName idx h ++ argumentList h.params) text

theorem openName_java (own : java.external? h.key = none) :
    java.openName idx .value (.named h) = java.declaredName idx h := by
  have referred : java.referredName idx h = java.declaredName idx h := by
    rw [referredName, own]
    rfl
  change java.holdNamed .value h.kind (java.referredName idx h) = _
  rw [referred]
  unfold holdNamed
  split <;> rfl

theorem javaImport_eq (own : java.external? h.key = none) (stays : declaredSpace h = h.space)
    (space : java.fileSpace h ≠ "") :
    Emit.javaImport idx h = java.fileSpace h ++ "." ++ java.declaredName idx h := by
  have some : h.space ≠ "" := by
    intro none
    rw [fileSpace, stays, none] at space
    exact space rfl
  rw [Emit.javaImport, own]
  rw [if_neg some, openName_java own, fileSpace, stays]

theorem javaNeedsImport_append {own space name : String} (last : '.' ∉ name.toList)
    (needs : java.NeedsImport own space) : Emit.javaNeedsImport own (space ++ "." ++ name) = true := by
  have cut : cutLast? '.' (space ++ "." ++ name) = some (space, name) :=
    cutLast?_append (by simp) last
  obtain ⟨other, some, lang⟩ := needs
  rw [Emit.javaNeedsImport, cut]
  simp [other, some, lang]

theorem encloses_of_hasLead {space own : String} (h : hasLead (space ++ ".") (own ++ ".") = true) :
    Encloses space own := by
  obtain ⟨rest, found⟩ := Option.isSome_iff_exists.mp h
  have whole := eq_append_of_afterChars? found
  rw [String.toList_append, String.toList_append, append_assoc] at whole
  rcases eq_nil_or_concat rest with rfl | ⟨init, last, rfl⟩
  · exact .inl (String.toList_injective (append_cancel_right whole))
  · rw [concat_eq_append, ← append_assoc, ← append_assoc] at whole
    obtain ⟨inside, -⟩ := append_inj' whole rfl
    refine .inr ⟨String.ofList init, String.toList_injective ?_⟩
    rw [inside]
    simp

end Target

namespace Compilation

variable {options : Options} {c : Compilation} {t : Target} {d e : TypeDecl}

/-! ## Units -/

/-- The definitions that a unit has noted. -/
def noted (options : Options) (c : Compilation) (t : Target) (d : TypeDecl) : List TypeHead :=
  (Emit.artifactFile.runOn (unitScene options c t d)).2.imports.entries.map (·.head)

variable {i : Import} {imports : Imports} {o : Output} {required : List String}

theorem text_of_mem_outputs (single : t = .java ∨ t = .csharp) (ho : o ∈ (emitUnit options c t d).outputs) :
    ∃ sheet, Emit.artifactFile.runOn (unitScene options c t d) = (.ok (), sheet) ∧ o.text = sheet.writer.text := by
  have other : t ≠ .cpp := by rcases single with rfl | rfl <;> decide
  obtain ⟨succeeds, full⟩ := succeeds_of_mem_outputs ho
  obtain ⟨o', outputs, sheet, run, text⟩ := exists_output_of_unit other succeeds full
  rw [outputs, mem_singleton] at ho
  exact ⟨sheet, run, ho ▸ text⟩

theorem declares_of_mem_outputs (single : t = .java ∨ t = .csharp) (ho : o ∈ (emitUnit options c t d).outputs) :
    t.Declares c.world.index d.head o.text := by
  obtain ⟨sheet, run, text⟩ := text_of_mem_outputs single ho
  obtain ⟨body, whole, named⟩ := Emit.artifactFile_text single run
  rw [text, whole]
  refine ⟨fun space => (hasLine_ofLines ?_).append body, named.behind (isLines_ofLines _)⟩
  rcases single with rfl | rfl
  · exact mem_append_left _ (Emit.mem_spaceLines space)
  · exact mem_append_right _ (Emit.mem_spaceLines space)

theorem mem_javaNames (hi : i ∈ imports.entries) (own : Target.java.external? i.head.key = none)
    (dot : '.' ∉ i.head.name.toList) (stays : Target.declaredSpace i.head = i.head.space)
    (needs : Target.java.NeedsImport (Target.java.fileSpace d.head) (Target.java.fileSpace i.head)) :
    Target.java.fileSpace i.head ++ "." ++ Target.java.declaredName c.world.index i.head ∈
      Emit.javaNames (unitScene options c .java d) imports required := by
  refine mem_mergeSort.mpr (mem_eraseDups.mpr (mem_append_left _ (mem_filter.mpr ⟨?_, ?_⟩)))
  · exact mem_map.mpr ⟨i, hi, Target.javaImport_eq own stays needs.2.1⟩
  · exact Target.javaNeedsImport_append (Target.dot_not_mem_declaredName own dot) needs

/-- The namespace of what is noted in C# is among those that are used. -/
theorem mem_csharpSpaces (hi : i ∈ imports.entries) (stays : Target.declaredSpace i.head = i.head.space)
    (needs : Target.csharp.NeedsImport (Target.csharp.fileSpace d.head) (Target.csharp.fileSpace i.head)) :
    Target.csharp.fileSpace i.head ∈ Emit.csharpSpaces (unitScene options c .csharp d) imports required := by
  obtain ⟨some, outside⟩ := needs
  have other : Target.csharp.fileSpace i.head ≠ d.space := fun same => outside (.inl same.symm)
  have around : hasLead (Target.csharp.fileSpace i.head ++ ".") (d.space ++ ".") = false := by
    rw [← Bool.not_eq_true]
    exact fun lead => outside (Target.encloses_of_hasLead lead)
  refine mem_mergeSort.mpr (mem_eraseDups.mpr (mem_append_left _ ?_))
  exact mem_filter.mpr ⟨mem_map.mpr ⟨i, hi, stays.symm⟩, by simp [unitScene, some, other, around]⟩

theorem hasLine_import (single : t = .java ∨ t = .csharp) {h : TypeHead} (ho : o ∈ (emitUnit options c t d).outputs)
    (own : t.external? h.key = none) (dot : '.' ∉ h.name.toList) (stays : Target.declaredSpace h = h.space)
    (mentions : h ∈ noted options c t d) (needs : t.NeedsImport (t.fileSpace d.head) (t.fileSpace h)) :
    HasLine (t.importLine (t.fileSpace h) (t.declaredName c.world.index h)) o.text := by
  obtain ⟨sheet, run, text⟩ := text_of_mem_outputs single ho
  obtain ⟨body, whole, -⟩ := Emit.artifactFile_text single run
  rw [noted, run] at mentions
  obtain ⟨i, hi, rfl⟩ := mem_map.mp mentions
  rw [text, whole]
  refine (hasLine_ofLines ?_).append body
  rcases single with rfl | rfl
  · exact Emit.mem_javaLines (mem_javaNames hi own dot stays needs)
  · exact Emit.mem_csharpLines (mem_csharpSpaces hi stays needs)

/-- **Imports agree with declarations** in Java and C#. When two units succeed, their texts declare their types, each in
its namespace and under its name. When the first unit refers to the type of the second, which no new name moves to
another namespace, and the file of that type is in a namespace that has to be imported, then the first text has the line
that imports just that namespace and name. -/
theorem imports_name_declarations {prelude : List TypeDraft} {file : String} {doc : Document}
    (load : ofDocument prelude file doc = .ok c) (he : e ∈ c.types) (single : t = .java ∨ t = .csharp)
    (own : t.external? e.head.key = none) (stays : Target.declaredSpace e.head = e.head.space) {o o' : Output}
    (ho : o ∈ (emitUnit options c t d).outputs) (ho' : o' ∈ (emitUnit options c t e).outputs)
    (mentions : e.head ∈ noted options c t d) :
    t.Declares c.world.index d.head o.text ∧ t.Declares c.world.index e.head o'.text ∧
      (t.NeedsImport (t.fileSpace d.head) (t.fileSpace e.head) →
        Text.HasLine (t.importLine (t.fileSpace e.head) (t.declaredName c.world.index e.head)) o.text) :=
  ⟨declares_of_mem_outputs single ho, declares_of_mem_outputs single ho',
    hasLine_import single ho own (dot_not_mem_of_load load he) stays mentions⟩

/-- Emission of Java alone, without templates. -/
def javaOnly : Options := { targets := [.java], templates := {} }

/-- A class with another name in emitted code, and one in another namespace that refers to it. -/
def pointAndCanvas : List TypeDraft :=
  [{ kind := "class", name := "Shapes.Point", rename := "Dot" },
    { kind := "class", name := "Drawing.Canvas",
      members := [some { kind := "field", name := "center", type := "Shapes.Point" }] }]

/-- The class is imported under its name in emitted code. -/
theorem imports_name_point : ∃ c d o, ofDocument Prelude.types "" { types := pointAndCanvas.map some } = .ok c ∧
    d ∈ c.types ∧ o ∈ (emitUnit javaOnly c .java d).outputs ∧ Text.HasLine "package drawing;" o.text ∧
      Text.HasLine "import shapes.Dot;" o.text := by
  have loaded : (ofDocument Prelude.types "" { types := pointAndCanvas.map some }).toOption.any (fun c =>
      decide (∃ e ∈ c.types, ∃ d ∈ c.types, noted javaOnly c .java d = [e.head] ∧
        Target.java.external? e.head.key = none ∧ Target.declaredSpace e.head = e.head.space ∧
        (emitUnit javaOnly c .java d).outputs.length = 1 ∧ (emitUnit javaOnly c .java e).outputs.length = 1 ∧
        Target.java.fileSpace d.head = "drawing" ∧ Target.java.fileSpace e.head = "shapes" ∧
        Target.java.declaredName c.world.index e.head = "Dot")) = true := by
    decide +kernel
  obtain ⟨c, load, found⟩ := exists_ok_of_any loaded
  obtain ⟨e, he, d, hd, refers, own, stays, one, one', here, there, name⟩ := of_decide_eq_true found
  obtain ⟨o, ho⟩ := length_eq_one_iff.mp one
  obtain ⟨o', ho'⟩ := length_eq_one_iff.mp one'
  have written : o ∈ (emitUnit javaOnly c .java d).outputs := ho ▸ mem_singleton.mpr rfl
  have result := imports_name_declarations load he (.inl rfl) own stays written
    (ho' ▸ mem_singleton.mpr rfl) (refers ▸ mem_singleton.mpr rfl)
  rw [Target.Declares, here, there, name] at result
  obtain ⟨⟨package, -⟩, -, imported⟩ := result
  exact ⟨c, d, o, load, hd, written, package (by decide), imported ⟨by decide, by decide, by decide⟩⟩

/-- A class that a new name moves to another namespace, one in `java.lang`, and for each a class that refers to it. -/
def movedAndKnown : List TypeDraft :=
  [{ kind := "class", name := "N.T", rename := "M.U" },
    { kind := "class", name := "java.lang.Foo" },
    { kind := "class", name := "P.S", members := [some { kind := "field", name := "a", type := "N.T" }] },
    { kind := "class", name := "P.R", members := [some { kind := "field", name := "b", type := "java.lang.Foo" }] }]

def movedAndKnownFiles : List String :=
  ["package m;\n\npublic class U \x7b\n\x7d\n",
    "package java.lang;\n\npublic class Foo \x7b\n\x7d\n",
    "package p;\n\nimport n.U;\n\npublic class S \x7b\n    private U a;\n\x7d\n",
    "package p;\n\npublic class R \x7b\n    private Foo b;\n\x7d\n"]

/-- **Not every type is imported from where it is declared**: the import of a moved type names its old namespace, and
types of `java.lang` are not imported. -/
theorem imports_miss_declarations : ∃ c, ofDocument Prelude.types "" { types := movedAndKnown.map some } = .ok c ∧
    (c.types.map fun d => (d.head.key, Target.java.external? d.head.key, (noted javaOnly c .java d).map (·.key))) =
      [("N.T", none, []), ("java.lang.Foo", none, []), ("P.S", none, ["N.T"]), ("P.R", none, ["java.lang.Foo"])] ∧
    (c.types.flatMap fun d => (emitUnit javaOnly c .java d).outputs.map (·.text)) = movedAndKnownFiles ∧
    ∀ text ∈ movedAndKnownFiles, ¬ Text.HasLine "import m.U;" text ∧ ¬ Text.HasLine "import java.lang.Foo;" text := by
  have loaded : (ofDocument Prelude.types "" { types := movedAndKnown.map some }).toOption.any (fun c => decide (
      (c.types.map fun d => (d.head.key, Target.java.external? d.head.key, (noted javaOnly c .java d).map (·.key))) =
        [("N.T", none, []), ("java.lang.Foo", none, []), ("P.S", none, ["N.T"]), ("P.R", none, ["java.lang.Foo"])] ∧
      (c.types.flatMap fun d => (emitUnit javaOnly c .java d).outputs.map (·.text)) = movedAndKnownFiles)) = true := by
    decide +kernel
  have absent : movedAndKnownFiles.all (fun text =>
      "import m.U;" ∉ Text.split '\n' text ∧ "import java.lang.Foo;" ∉ Text.split '\n' text) = true := by
    decide +kernel
  obtain ⟨c, load, shape⟩ := exists_ok_of_any loaded
  obtain ⟨types, texts⟩ := of_decide_eq_true shape
  refine ⟨c, load, types, texts, fun text mem => ?_⟩
  obtain ⟨noMoved, noKnown⟩ := of_decide_eq_true (all_eq_true.mp absent text mem)
  exact ⟨fun line => noMoved (line.mem_split (by decide)), fun line => noKnown (line.mem_split (by decide))⟩

end Compilation

end Polyglot
