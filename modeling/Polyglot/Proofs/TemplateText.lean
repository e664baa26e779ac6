import Mathlib.Data.List.TakeWhile
import Polyglot.Proofs.Basic
import Polyglot.Template.Basic

/-!
# Filling templates

A template is read once from left to right: where a variable is written, it is taken, and any other character stands for
itself. `Scanned` says so without an algorithm, and a text has just one such reading (`scanned_iff`). A filled template is its
reading with every variable replaced by its own value (`render_exact`).
-/

namespace Polyglot

open List

/-! ## Written variables -/

namespace Template

/-- A name: a letter or an underscore, then letters, digits and underscores. -/
structure IsName (cs : List Char) : Prop where
  starts : ∃ c rest, cs = c :: rest ∧ isNameStart c = true
  parts : ∀ c ∈ cs, isNamePart c = true

theorem isNamePart_of_isNameStart {c : Char} (start : isNameStart c = true) : isNamePart c = true := by
  simp only [isNameStart, isNamePart, Char.isAlphanum, Bool.or_eq_true] at start ⊢
  exact start.imp_left .inl

variable {cs rest : List Char} {name : String}

theorem takeName?_append (isName : IsName cs) (ends : ∀ c ∈ rest.head?, isNamePart c = false) :
    takeName? (cs ++ rest) = some (String.ofList cs, rest) := by
  obtain ⟨c, tail, rfl, start⟩ := isName.starts
  obtain ⟨taken, dropped⟩ := span_append (fun d mem => isName.parts d (mem_cons_of_mem _ mem)) ends
  rw [cons_append, takeName?, if_pos start, taken, dropped]

theorem of_takeName? (read : takeName? cs = some (name, rest)) : cs = name.toList ++ rest ∧ IsName name.toList := by
  cases cs with
  | nil => cases read
  | cons c cs =>
    rw [takeName?] at read
    split at read
    · next start =>
      cases read
      rw [String.toList_ofList, cons_append, takeWhile_append_dropWhile]
      refine ⟨rfl, ⟨c, _, rfl, start⟩, forall_mem_cons.mpr ⟨isNamePart_of_isNameStart start, ?_⟩⟩
      exact fun d mem => mem_takeWhile_imp mem
    · cases read

end Template

namespace Variable

open Template

/-- **How a variable is written**: its name, and behind a colon its modifier if it has one, in braces. -/
inductive Written : Variable → List Char → Prop where
  | plain (name : String) : IsName name.toList → Written ⟨name, ""⟩ ('\x7b' :: name.toList ++ ['\x7d'])
  | modified (name modifier : String) : IsName name.toList → IsName modifier.toList →
    Written ⟨name, modifier⟩ ('\x7b' :: name.toList ++ ':' :: modifier.toList ++ ['\x7d'])

variable {u v : Variable} {text cs rest : List Char}

/-- What is written between the braces is the token. -/
theorem Written.eq_token (written : v.Written text) : text = '\x7b' :: v.token.toList ++ ['\x7d'] := by
  cases written with
  | plain name isName => rfl
  | modified name modifier isName isModifier =>
    have some : modifier ≠ "" := by
      rintro rfl
      obtain ⟨_, _, none, -⟩ := isModifier.starts
      cases none
    simp [token, some]

/-- **The scanner takes a variable exactly where one is written.** -/
theorem takeVariable?_eq_some_iff : takeVariable? cs = some (v, rest) ↔ ∃ text, v.Written text ∧ '\x7b' :: cs = text ++ rest := by
  constructor
  · intro read
    unfold takeVariable? at read
    split at read
    · next name rest' first =>
      cases read
      obtain ⟨rfl, isName⟩ := of_takeName? first
      exact ⟨_, .plain name isName, by simp⟩
    · next name behind first =>
      split at read
      · next modifier rest' second =>
        cases read
        obtain ⟨rfl, isName⟩ := of_takeName? first
        obtain ⟨rfl, isModifier⟩ := of_takeName? second
        exact ⟨_, .modified name modifier isName isModifier, by simp⟩
      · cases read
    · cases read
  · rintro ⟨text, written, whole⟩
    have ends {d : Char} {behind : List Char} (stop : isNamePart d = false) :
        ∀ c ∈ (d :: behind).head?, isNamePart c = false := by
      rintro _ ⟨⟩
      exact stop
    unfold takeVariable?
    cases written with
    | plain name isName =>
      simp only [cons_append, append_assoc, cons.injEq, true_and] at whole
      rw [whole, takeName?_append isName (ends rfl), String.ofList_toList]
      rfl
    | modified name modifier isName isModifier =>
      simp only [cons_append, append_assoc, cons.injEq, true_and] at whole
      have read : takeName? (modifier.toList ++ '\x7d' :: rest) = some (modifier, '\x7d' :: rest) := by
        rw [takeName?_append isModifier (ends rfl), String.ofList_toList]
      rw [whole, takeName?_append isName (ends rfl)]
      simp [read]

/-- **Tokens tell written variables apart.** -/
theorem Written.token_inj {text' : List Char} (written : u.Written text) (written' : v.Written text')
    (same : u.token = v.token) : u = v := by
  have texts : text = text' := by rw [written.eq_token, written'.eq_token, same]
  subst texts
  obtain ⟨cs, rfl⟩ : ∃ cs, text = '\x7b' :: cs := ⟨_, written.eq_token⟩
  have read := takeVariable?_eq_some_iff.mpr ⟨_, written, (append_nil _).symm⟩
  have read' := takeVariable?_eq_some_iff.mpr ⟨_, written', (append_nil _).symm⟩
  exact (Prod.mk.inj (Option.some.inj (read.symm.trans read'))).1

end Variable

/-! ## Readings -/

namespace Template

open Variable

/-- **The reading of a text from left to right.** A written variable is taken whole; a character stands for itself where no
variable is written. -/
inductive Scanned : List Char → List Segment → Prop where
  | nil : Scanned [] []
  | token {v : Variable} {text rest : List Char} {segments : List Segment} :
    v.Written text → Scanned rest segments → Scanned (text ++ rest) (.variable v :: segments)
  | char {c : Char} {rest : List Char} {segments : List Segment} :
    (∀ v text, Written v text → ¬ text <+: c :: rest) → Scanned rest segments →
      Scanned (c :: rest) (.char c :: segments)

variable {cs rest : List Char} {v : Variable} {c : Char}

theorem length_of_takeVariable? (read : takeVariable? cs = some (v, rest)) : rest.length < cs.length := by
  obtain ⟨text, written, whole⟩ := takeVariable?_eq_some_iff.mp read
  have lengths := congrArg length whole
  rw [written.eq_token] at lengths
  simp at lengths
  omega

theorem scanWithin_eq {m n : Nat} (hm : cs.length ≤ m) (hn : cs.length ≤ n) : scanWithin m cs = scanWithin n cs := by
  induction m generalizing n cs with
  | zero =>
    obtain rfl := length_eq_zero_iff.mp (Nat.le_zero.mp hm)
    cases n <;> rfl
  | succ m ih =>
    cases cs with
    | nil => cases n <;> rfl
    | cons c cs =>
      obtain ⟨n, rfl⟩ : ∃ k, n = k + 1 := Nat.exists_eq_succ_of_ne_zero (by rintro rfl; cases hn)
      have tail : scanWithin m cs = scanWithin n cs := ih (Nat.le_of_succ_le_succ hm) (Nat.le_of_succ_le_succ hn)
      rw [length_cons] at hm hn
      rw [scanWithin, scanWithin, tail]
      split
      · cases read : takeVariable? cs with
        | none => rfl
        | some taken =>
          have shorter := length_of_takeVariable? read
          have rest : scanWithin m taken.2 = scanWithin n taken.2 := ih (by omega) (by omega)
          exact congrArg (Segment.variable taken.1 :: ·) rest
      · rfl

theorem scan_cons_of_some (read : takeVariable? cs = some (v, rest)) : scan ('\x7b' :: cs) = .variable v :: scan rest := by
  rw [scan, length_cons, scanWithin, read]
  exact congrArg (Segment.variable v :: ·) (scanWithin_eq (Nat.le_of_lt (length_of_takeVariable? read)) (Nat.le_refl _))

theorem scan_cons_of_none (unread : c = '\x7b' → takeVariable? cs = none) : scan (c :: cs) = .char c :: scan cs := by
  rw [scan, length_cons, scanWithin]
  split
  · next brace =>
    rw [unread brace]
    rfl
  · rfl

theorem scan_written {text : List Char} (written : v.Written text) (rest : List Char) :
    scan (text ++ rest) = .variable v :: scan rest := by
  obtain ⟨cs, rfl⟩ : ∃ cs, text = '\x7b' :: cs := ⟨_, written.eq_token⟩
  exact scan_cons_of_some (takeVariable?_eq_some_iff.mpr ⟨_, written, rfl⟩)

theorem scan_unwritten (free : ∀ v text, Written v text → ¬ text <+: c :: cs) :
    scan (c :: cs) = .char c :: scan cs := by
  refine scan_cons_of_none ?_
  rintro rfl
  refine Option.eq_none_iff_forall_ne_some.mpr fun ⟨v, rest⟩ read => ?_
  obtain ⟨text, written, whole⟩ := takeVariable?_eq_some_iff.mp read
  exact free v text written ⟨rest, whole.symm⟩

variable {segments : List Segment}

/-- **The scanner gives the reading of a text**, and there is no other. -/
theorem scanned_iff : Scanned cs segments ↔ segments = scan cs := by
  constructor
  · intro scanned
    induction scanned with
    | nil => rfl
    | token written _ ih => rw [scan_written written, ih]
    | char free _ ih => rw [scan_unwritten free, ih]
  · rintro rfl
    -- Each step leaves a shorter text.
    induction h : cs.length using Nat.strong_induction_on generalizing cs with
    | _ n ih =>
      cases cs with
      | nil => exact .nil
      | cons c rest =>
        subst h
        by_cases some : ∃ v text, Written v text ∧ text <+: c :: rest
        · obtain ⟨v, text, written, behind, whole⟩ := some
          have shorter : behind.length < (c :: rest).length := by
            rw [← whole, written.eq_token]
            simp
            omega
          rw [← whole, scan_written written]
          exact .token written (ih _ shorter rfl)
        · have free (v : Variable) (text : List Char) (written : Written v text) : ¬ text <+: c :: rest :=
            fun lead => some ⟨v, text, written, lead⟩
          rw [scan_unwritten free]
          exact .char free (ih _ (Nat.lt_succ_self _) rfl)

theorem Scanned.written {segments : List Segment} (scanned : Scanned cs segments) (mem : .variable v ∈ segments) :
    ∃ text, v.Written text := by
  induction scanned with
  | nil => cases mem
  | token written _ ih =>
    rcases mem_cons.mp mem with same | mem
    · cases same
      exact ⟨_, written⟩
    · exact ih mem
  | char _ _ ih =>
    rcases mem_cons.mp mem with same | mem
    · cases same
    · exact ih mem

/-! ## Variables -/

variable {t : Template} {u : Variable}

theorem mem_varsOf {seen : List Variable} : v ∈ varsOf seen segments ↔ v ∉ seen ∧ .variable v ∈ segments := by
  induction segments generalizing seen with
  | nil => simp [varsOf]
  | cons segment segments ih =>
    cases segment with
    | char c => simp [varsOf, ih]
    | «variable» w =>
      rw [varsOf]
      by_cases same : v = w
      · subst same
        by_cases old : v ∈ seen <;> simp [old, ih]
      · by_cases old : w ∈ seen <;> simp [old, ih, same]

/-- **The variables of a template are those that are written in it.** -/
theorem mem_vars : v ∈ t.vars ↔ .variable v ∈ t.segments := by
  rw [vars, mem_varsOf]
  simp

theorem nodup_varsOf (segments : List Segment) (seen : List Variable) : (varsOf seen segments).Nodup := by
  induction segments generalizing seen with
  | nil => exact nodup_nil
  | cons segment segments ih =>
    cases segment with
    | char c => exact ih seen
    | «variable» w =>
      rw [varsOf]
      split
      · exact ih seen
      · refine nodup_cons.mpr ⟨fun again => ?_, ih _⟩
        exact (mem_varsOf.mp again).1 mem_cons_self

/-- Variables stand in the order in which they first appear. -/
theorem varsOf_sorted (segments : List Segment) (seen : List Variable) :
    (varsOf seen segments).Pairwise fun u v => segments.idxOf (.variable u) < segments.idxOf (.variable v) := by
  induction segments generalizing seen with
  | nil => exact .nil
  | cons segment segments ih =>
    have later {seen : List Variable} (fresh : ∀ v ∈ varsOf seen segments, Segment.variable v ≠ segment) :
        (varsOf seen segments).Pairwise fun u v =>
          (segment :: segments).idxOf (.variable u) < (segment :: segments).idxOf (.variable v) := by
      refine (ih seen).imp_of_mem fun hu hv before => ?_
      rw [idxOf_cons_ne _ (fresh _ hu).symm, idxOf_cons_ne _ (fresh _ hv).symm]
      exact Nat.succ_lt_succ before
    cases segment with
    | char c => exact later fun v _ same => by cases same
    | «variable» w =>
      rw [varsOf]
      split
      · next old =>
        refine later fun v mem same => (mem_varsOf.mp mem).1 ?_
        cases same
        simpa using old
      · have fresh (v : Variable) (mem : v ∈ varsOf (w :: seen) segments) : Segment.variable v ≠ .variable w := by
          rintro ⟨⟩
          exact (mem_varsOf.mp mem).1 mem_cons_self
        refine pairwise_cons.mpr ⟨fun v mem => ?_, later fresh⟩
        rw [idxOf_cons_self, idxOf_cons_ne _ (fresh v mem).symm]
        exact Nat.succ_pos _

/-- **Tokens tell the variables of a template apart.** -/
theorem token_inj_of_mem_vars (hu : u ∈ t.vars) (hv : v ∈ t.vars) (same : u.token = v.token) : u = v := by
  have scanned : Scanned t.raw.toList t.segments := scanned_iff.mpr rfl
  obtain ⟨_, written⟩ := scanned.written (mem_vars.mp hu)
  obtain ⟨_, written'⟩ := scanned.written (mem_vars.mp hv)
  exact written.token_inj written' same

/-! ## Filling -/

/-- What stands for a piece of a reading: a character for itself, and a value for a variable. -/
def fill (value : Variable → String) : Segment → List Char
  | .char c => [c]
  | .variable v => (value v).toList

variable {values : Values}

theorem render_eq_error_iff {f : Fault} : t.render values = .error f ↔
      ∃ before v after, t.vars = before ++ v :: after ∧ (∀ u ∈ before, (values.lookup u.token).isSome) ∧
        values.lookup v.token = none ∧ f = Fault.unboundVariable t.symbol v.token := by
  unfold render
  cases found : t.vars.find? (fun v => (values.lookup v.token).isNone) with
  | none =>
    refine iff_of_false nofun ?_
    rintro ⟨before, v, after, whole, -, missing, -⟩
    have listed : v ∈ t.vars := whole ▸ mem_append_right _ mem_cons_self
    exact find?_eq_none.mp found v listed (by rw [missing]; rfl)
  | some v =>
    obtain ⟨missing, before, after, whole, given⟩ := find?_eq_some_iff_append.mp found
    rw [Option.isNone_iff_eq_none] at missing
    have filled (u : Variable) (mem : u ∈ before) : (values.lookup u.token).isSome := by
      simpa using given u mem
    constructor
    · rintro ⟨⟩
      exact ⟨before, v, after, whole, filled, missing, rfl⟩
    · rintro ⟨before', v', after', whole', filled', missing', rfl⟩
      have first : t.vars.find? (fun v => (values.lookup v.token).isNone) = some v' :=
        find?_eq_some_iff_append.mpr
          ⟨by rw [missing']; rfl, before', after', whole', fun u mem => by simpa using Option.isSome_iff_ne_none.mp (filled' u mem)⟩
      rw [Option.some.inj (found.symm.trans first)]

theorem flatMap_segmentText {value : Variable → String}
    (given : ∀ v, .variable v ∈ segments → values.lookup v.token = some (value v)) :
    (String.join (segments.map (segmentText values))).toList = segments.flatMap (fill value) := by
  induction segments with
  | nil => rfl
  | cons segment segments ih =>
    have rest := ih fun v mem => given v (mem_cons_of_mem _ mem)
    rw [map_cons, String.join_cons, String.toList_append, rest, flatMap_cons]
    cases segment with
    | char c => simp [segmentText, fill]
    | «variable» v => rw [segmentText, given v mem_cons_self, Option.getD_some, fill]

/-- **A template is filled exactly when all of its variables have values**, and then each stands for its variable. -/
theorem render_eq_ok_iff {text : String} : t.render values = .ok text ↔
      ∃ value : Variable → String, (∀ v ∈ t.vars, values.lookup v.token = some (value v)) ∧
        text.toList = t.segments.flatMap (fill value) := by
  constructor
  · intro run
    unfold render at run
    split at run
    · cases run
    · next all =>
      cases run
      let value (v : Variable) : String := (values.lookup v.token).getD ""
      have given (v : Variable) (mem : v ∈ t.vars) : values.lookup v.token = some (value v) := by
        have bound : values.lookup v.token ≠ none := fun missing => find?_eq_none.mp all v mem (by rw [missing]; rfl)
        obtain ⟨s, found⟩ := Option.ne_none_iff_exists'.mp bound
        simp [value, found]
      exact ⟨value, given, flatMap_segmentText fun v mem => given v (mem_vars.mpr mem)⟩
  · rintro ⟨value, given, whole⟩
    have all : t.vars.find? (fun v => (values.lookup v.token).isNone) = none :=
      find?_eq_none.mpr fun v mem => by simp [given v mem]
    unfold render
    rw [all]
    have filled := flatMap_segmentText fun v mem => given v (mem_vars.mpr mem)
    exact congrArg Except.ok (String.toList_injective (filled.trans whole.symm))

/-! ## Whole templates -/

/-- **Templates are filled in one pass.** A text is a template exactly when it has as many opening as closing braces. It has
one reading from left to right, and its variables are those of the reading, each once, in the order in which they first
appear. Filling it names the first variable without a value, if there is one; otherwise it gives the reading with each
variable replaced by its own value and every other character as it is, whatever the values look like. -/
theorem render_exact (symbol raw : String) :
    ((∃ f, parse symbol raw = .error f) ↔ raw.toList.count '\x7b' ≠ raw.toList.count '\x7d') ∧
      ∀ t, parse symbol raw = .ok t → ∃ segments, (∀ other, Scanned raw.toList other ↔ other = segments) ∧
        t.vars.Nodup ∧ (∀ v, v ∈ t.vars ↔ .variable v ∈ segments) ∧
        (t.vars.Pairwise fun u v => segments.idxOf (.variable u) < segments.idxOf (.variable v)) ∧
        ∀ values : Values,
          (∀ f, t.render values = .error f ↔
            ∃ before v after, t.vars = before ++ v :: after ∧ (∀ u ∈ before, (values.lookup u.token).isSome) ∧
              values.lookup v.token = none ∧ f = Fault.unboundVariable symbol v.token) ∧
          ∀ text, t.render values = .ok text ↔
            ∃ value : Variable → String, (∀ v ∈ t.vars, values.lookup v.token = some (value v)) ∧
              text.toList = segments.flatMap (fill value) := by
  unfold parse
  by_cases balanced : raw.toList.count '\x7b' = raw.toList.count '\x7d'
  · rw [if_pos balanced]
    refine ⟨iff_of_false (fun ⟨_, refused⟩ => by cases refused) (fun differ => differ balanced), fun t same => ?_⟩
    cases same
    exact ⟨scan raw.toList, fun _ => scanned_iff, nodup_varsOf _ _, fun _ => mem_vars, varsOf_sorted _ _,
      fun _ => ⟨fun _ => render_eq_error_iff, fun _ => render_eq_ok_iff⟩⟩
  · rw [if_neg balanced]
    exact ⟨iff_of_true ⟨_, rfl⟩ balanced, nofun⟩

/-- Braces that make no variable, one name with and without a modifier, and values that look like variables. -/
theorem render_exact_nested :
    let raw := "\x7b\x7ba\x7d + \x7ba:raw\x7d\x7d"
    let values : Values := [("a", "\x7ba:raw\x7d"), ("a:raw", "\x7d")]
    ∃ t, parse "N.F" raw = .ok t ∧ t.vars = [⟨"a", ""⟩, ⟨"a", "raw"⟩] ∧
      t.render values = .ok "\x7b\x7ba:raw\x7d + \x7d\x7d" ∧
      t.render [] = .error (Fault.unboundVariable "N.F" "a") := by
  intro raw values
  have ok : parse "N.F" raw = .ok ⟨"N.F", raw⟩ := by decide +kernel
  have vars : vars ⟨"N.F", raw⟩ = [⟨"a", ""⟩, ⟨"a", "raw"⟩] := by decide +kernel
  obtain ⟨segments, reading, -, -, -, filled⟩ := (render_exact "N.F" raw).2 _ ok
  obtain rfl := (reading (scan raw.toList)).mp (scanned_iff.mpr rfl)
  refine ⟨_, ok, vars, ((filled values).2 _).mpr ⟨fun v => (values.lookup v.token).getD "", ?_, by decide +kernel⟩,
    ((filled []).1 _).mpr ⟨[], _, _, vars, nofun, rfl, rfl⟩⟩
  decide +kernel

end Template

end Polyglot
