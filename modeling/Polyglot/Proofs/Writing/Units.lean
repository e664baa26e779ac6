import Polyglot.Proofs.Basic
import Polyglot.Report

/-!
# Units and their files

A unit is one declaration in one target. When it succeeds, its outputs are what is written into its files, one by one; only C++
has more than one file for a type.
-/

namespace Polyglot.Compilation

variable {options : Options} {c : Compilation} {t : Target} {d : TypeDecl}

/-- What a file of a unit is emitted from. -/
def fileScene (options : Options) (c : Compilation) (t : Target) (d : TypeDecl) (a : Artifact) : Scene where
  target := t
  world := c.world
  templates := options.templates
  decl := d
  artifact := a

def IsFile (scene : Artifact → Scene) (a : Artifact) (o : Output) : Prop :=
  o.path = a.path ∧ ∃ sheet, Emit.artifactFile.runOn (scene a) = (.ok (), sheet) ∧ o.text = sheet.writer.text

theorem forall₂_emitFiles {scene : Artifact → Scene} {files : List Artifact} {outputs : List Output}
    {diagnostics : List Diagnostic} (h : emitFiles scene files = (outputs, diagnostics, none)) :
    List.Forall₂ (IsFile scene) files outputs := by
  induction files generalizing outputs diagnostics with
  | nil =>
    cases h
    exact .nil
  | cons a files ih =>
    rw [emitFiles] at h
    split at h
    · cases h
    · next sheet run =>
      obtain ⟨rfl, rest⟩ := Prod.mk.inj h
      exact .cons ⟨rfl, sheet, run, rfl⟩ (ih (Prod.ext rfl (Prod.ext rfl (Prod.mk.inj rest).2)))

/-- **The outputs of a unit that succeeds** are what is written into its files. -/
theorem forall₂_outputs (succeeds : (emitUnit options c t d).failure = none) (full : options.isCheck = false) :
    List.Forall₂ (IsFile (fileScene options c t d)) (t.artifacts c.world.index d.head) (emitUnit options c t d).outputs := by
  unfold emitUnit at succeeds ⊢
  dsimp only at succeeds ⊢
  split at succeeds
  · cases succeeds
  · next going =>
    rw [if_neg going]
    split at succeeds
    · next outputs diagnostics files =>
      rw [full]
      exact forall₂_emitFiles files
    · cases succeeds

/-- Only a unit that succeeds has outputs, unless it is a mere check. -/
theorem succeeds_of_mem_outputs {o : Output} (ho : o ∈ (emitUnit options c t d).outputs) :
    (emitUnit options c t d).failure = none ∧ options.isCheck = false := by
  unfold emitUnit at ho ⊢
  dsimp only at ho ⊢
  split at ho
  · cases ho
  · next going =>
    rw [if_neg going]
    split at ho
    · refine ⟨rfl, Bool.eq_false_iff.mpr fun isCheck => ?_⟩
      rw [isCheck] at ho
      cases ho
    · cases ho

/-! ## Units of one file -/

/-- What the file of a unit of one file is emitted from. -/
def unitScene (options : Options) (c : Compilation) (t : Target) (d : TypeDecl) : Scene where
  target := t
  world := c.world
  templates := options.templates
  decl := d
  artifact := ⟨.source, t.artifactPath c.world.index d.head .source⟩

theorem artifacts_eq_singleton (options : Options) (other : t ≠ .cpp) :
    t.artifacts c.world.index d.head = [(unitScene options c t d).artifact] := by
  cases t with
  | cpp => exact absurd rfl other
  | _ => rfl

/-- **The output of a unit of one file.** -/
theorem exists_output_of_unit (other : t ≠ .cpp) (succeeds : (emitUnit options c t d).failure = none)
    (full : options.isCheck = false) : ∃ o, (emitUnit options c t d).outputs = [o] ∧
      ∃ sheet, Emit.artifactFile.runOn (unitScene options c t d) = (.ok (), sheet) ∧ o.text = sheet.writer.text := by
  have written := forall₂_outputs succeeds full
  rw [artifacts_eq_singleton options other] at written
  obtain ⟨o, _, ⟨-, file⟩, rest, whole⟩ := List.forall₂_cons_left_iff.mp written
  rw [List.forall₂_nil_left_iff.mp rest] at whole
  exact ⟨o, whole, file⟩

end Polyglot.Compilation
