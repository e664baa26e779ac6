import Polyglot.Proofs.Declaration
import Polyglot.Proofs.Meaning

/-!
# The passes of loading

Types are entered first, then their supertypes, then their members, and then the bodies of members are resolved. The index of
definitions and the hierarchy stay as the first two passes left them, and the declarations come out in the order of the
document.
-/

namespace Polyglot

namespace Compilation

variable {w w' : World}

/-- Where the texts of a namespace are read. -/
def scopeIn (w : World) (params : List String) (space : String) : TypeExpr.Scope where
  index := w.index
  hierarchy := w.hierarchy
  usings := w.usings
  params
  space

/-! ## Supertypes -/

variable {ds : List (Entry × TypeDecl)} {es : List Entry} {e : Entry}

theorem addInterfaces_shape {head : TypeHead} {texts : List String} (run : addInterfaces e head texts w = .ok w') :
    w' = { w with hierarchy := w'.hierarchy } := by
  induction texts generalizing w with
  | nil =>
    cases run
    rfl
  | cons text texts ih =>
    obtain ⟨t, -, run⟩ := bind_eq_ok.mp run
    have kept := ih run
    exact kept

theorem declareSupertypes_shape (run : declareSupertypes w e = .ok w') : w' = { w with hierarchy := w'.hierarchy } := by
  unfold declareSupertypes at run
  split at run
  · split at run
    · exact addInterfaces_shape run
    · obtain ⟨t, -, run⟩ := bind_eq_ok.mp run
      have kept := addInterfaces_shape run
      exact kept
  · cases run
    rfl

/-- **Declaring supertypes enters nothing else.** -/
theorem foldlM_shape (run : es.foldlM declareSupertypes w = .ok w') : w' = { w with hierarchy := w'.hierarchy } := by
  induction es generalizing w with
  | nil =>
    cases run
    rfl
  | cons e es ih =>
    obtain ⟨w₁, here, run⟩ := bind_eq_ok.mp run
    have later := ih run
    rwa [declareSupertypes_shape here] at later

theorem foldlM_keepsIndex (run : es.foldlM declareSupertypes w = .ok w') : w'.index = w.index := by
  rw [foldlM_shape run]

/-! ## Members -/

/-- What the passes over members never change: the names in reach, the definitions and their supertypes. -/
structure KeepsTypes (w w' : World) : Prop where
  index : w'.index = w.index
  hierarchy : w'.hierarchy = w.hierarchy
  usings : w'.usings = w.usings

theorem KeepsTypes.refl (w : World) : KeepsTypes w w := ⟨rfl, rfl, rfl⟩

theorem KeepsTypes.trans {w'' : World} (first : KeepsTypes w w') (second : KeepsTypes w' w'') : KeepsTypes w w'' where
  index := second.index.trans first.index
  hierarchy := second.hierarchy.trans first.hierarchy
  usings := second.usings.trans first.usings

theorem keepsTypes_addMember (w : World) (key : String) (s : Symbol) : KeepsTypes w (w.addMember key s) :=
  ⟨rfl, rfl, rfl⟩

/-- Nothing is entered but default values. -/
structure Untouched (w w' : World) : Prop extends KeepsTypes w w' where
  members : w'.members = w.members

theorem Untouched.refl (w : World) : Untouched w w := ⟨.refl w, rfl⟩

def IsRead (idx : TypeIndex) (params : List String) (t : Ty) : Prop :=
  ∃ s x, s.index = idx ∧ s.params = params ∧ TypeExpr.read s x = .ok t

variable {d : TypeDecl} {line : Int} {ms : List Member} {params : List String} {space : String}

theorem declareParameter_spec {p : ParameterDraft Draft} {q : Parameter}
    (run : declareParameter params space line p w = .ok (w', q)) : Untouched w w' ∧ IsRead w.index params q.type := by
  unfold declareParameter at run
  extract_lets scope at run
  obtain ⟨type, read, run⟩ := bind_eq_ok.mp run
  have isRead : IsRead w.index params type := ⟨scope, p.type, rfl, rfl, TypeExpr.readAt_eq_ok read⟩
  split at run
  · cases run
  · cases run
  · split at run
    · cases run
    · split at run
      · cases run
        exact ⟨.refl w, isRead⟩
      · obtain ⟨⟨e, _⟩, -, run⟩ := bind_eq_ok.mp run
        dsimp only at run
        split at run <;> cases run <;> exact ⟨⟨⟨rfl, rfl, rfl⟩, rfl⟩, isRead⟩

theorem declareParameters_spec {ps : List (Option (ParameterDraft Draft))} {qs : List Parameter}
    (run : declareParameters params space line ps w = .ok (w', qs)) :
    Untouched w w' ∧ ∀ q ∈ qs, IsRead w.index params q.type := by
  induction ps generalizing w qs with
  | nil =>
    cases run
    exact ⟨.refl _, by simp⟩
  | cons p ps ih =>
    cases p with
    | none => cases run
    | some p =>
      obtain ⟨⟨w₁, q⟩, here, run⟩ := bind_eq_ok.mp run
      obtain ⟨⟨w₂, qs'⟩, rest, run⟩ := bind_eq_ok.mp run
      cases run
      obtain ⟨first, isRead⟩ := declareParameter_spec here
      obtain ⟨later, areRead⟩ := ih rest
      rw [first.index] at areRead
      exact ⟨⟨first.toKeepsTypes.trans later.toKeepsTypes, later.members.trans first.members⟩,
        List.forall_mem_cons.mpr ⟨isRead, areRead⟩⟩

/-- The symbol of a member, as it is entered: it belongs to a type, a constructor has no name of its own, and the types of the
parameters are read with the type parameters of both in scope. -/
structure IsEntered (idx : TypeIndex) (t : Ty) (params : List String) (as : SymbolKind) (s : Symbol) : Prop where
  container : s.container = some t
  kind : s.kind = as
  isNamed : as = .constructor → s.name = ".ctor"
  isRead : ∀ p ∈ s.parameters, IsRead idx (params ++ s.typeParameters) p.type

/-- The symbol of a member belongs to its type, and is not entered yet. -/
theorem declareSymbol_spec {kind : SymbolKind} {m : MemberDraft} {s : Symbol} (run : declareSymbol e kind m w = .ok (w', s)) :
    Untouched w w' ∧ IsEntered w.index e.type e.draft.typeParameters kind s := by
  unfold declareSymbol at run
  extract_lets t isInterface name params typeText rest at run
  have parameters {type : Ty} (run : rest type = .ok (w', s)) :
      Untouched w w' ∧ IsEntered w.index e.type e.draft.typeParameters kind s := by
    obtain ⟨⟨w₁, ps⟩, here, run⟩ := bind_eq_ok.mp run
    obtain ⟨same, areRead⟩ := declareParameters_spec here
    cases run
    refine ⟨same, rfl, rfl, ?_, areRead⟩
    rintro rfl
    rfl
  split at run
  · cases run
  · split at run
    · obtain ⟨type, -, run⟩ := bind_eq_ok.mp run
      exact parameters run
    · split at run
      · exact parameters run
      · cases run

/-- A member as it is before its trees are resolved. -/
structure IsBare (d : MemberDraft) (m : Member) : Prop where
  kind : MemberKind.ofText? d.kind = some m.kind
  bare : m = { kind := m.kind, symbol := m.symbol, place := m.place }

theorem declareMemberList_threaded {ds : List (Option MemberDraft)} (run : declareMemberList e ds w = .ok (w', ms)) :
    ∃ drafts : List MemberDraft, ds = drafts.map some ∧
      Threaded (fun w d m w' => IsBare d m ∧ ∃ w₁, declareSymbol e m.kind.symbolKind d w = .ok (w₁, m.symbol) ∧
        w' = w₁.addMember e.type.definitionKey m.symbol) w drafts ms w' := by
  induction ds generalizing w ms with
  | nil =>
    cases run
    exact ⟨[], rfl, .nil _⟩
  | cons d ds ih =>
    cases d with
    | none => cases run
    | some d =>
      rw [declareMemberList] at run
      split at run
      · cases run
      · next kind known =>
        obtain ⟨⟨w₁, s⟩, here, run⟩ := bind_eq_ok.mp run
        obtain ⟨⟨w₂, ms'⟩, rest, run⟩ := bind_eq_ok.mp run
        cases run
        obtain ⟨drafts, rfl, steps⟩ := ih rest
        exact ⟨d :: drafts, rfl, .cons ⟨⟨known, rfl⟩, w₁, here, rfl⟩ steps⟩

theorem declareMemberList_keepsTypes {ds : List (Option MemberDraft)} (run : declareMemberList e ds w = .ok (w', ms)) :
    KeepsTypes w w' := by
  obtain ⟨drafts, -, steps⟩ := declareMemberList_threaded run
  refine steps.rel .refl .trans ?_
  rintro w d m _ ⟨-, w₁, here, rfl⟩
  exact (declareSymbol_spec here).1.toKeepsTypes.trans (keepsTypes_addMember _ _ _)

theorem keepsTypes_declareValues (t : Ty) (values : List EnumValueDraft) (w : World) :
    KeepsTypes w (declareValues t values w) := by
  induction values generalizing w with
  | nil => exact .refl w
  | cons v values ih => exact (keepsTypes_addMember w _ _).trans (ih _)

theorem declareInvoke_untouched {s : Option Symbol} (run : declareInvoke e w = .ok (w', s)) : Untouched w w' := by
  unfold declareInvoke at run
  split at run
  · cases run
    exact .refl _
  · obtain ⟨⟨w₁, s'⟩, here, run⟩ := bind_eq_ok.mp run
    cases run
    obtain ⟨same, -⟩ := declareSymbol_spec here
    exact ⟨same.toKeepsTypes.trans ⟨rfl, rfl, rfl⟩, same.members⟩

theorem declareMembers_keepsTypes (run : declareMembers w e = .ok (w', d)) : KeepsTypes w w' := by
  unfold declareMembers at run
  extract_lets t key d symbol entered valued at run
  obtain ⟨⟨w₁, invoke⟩, hinvoke, run⟩ := bind_eq_ok.mp run
  obtain ⟨⟨w₂, members⟩, hmembers, run⟩ := bind_eq_ok.mp run
  have symbols : KeepsTypes w entered := ⟨rfl, rfl, rfl⟩
  have values : KeepsTypes w valued := symbols.trans (keepsTypes_declareValues t d.values entered)
  have before := (values.trans (declareInvoke_untouched hinvoke).toKeepsTypes).trans (declareMemberList_keepsTypes hmembers)
  cases run
  refine before.trans ?_
  split
  · exact keepsTypes_addMember _ _ _
  · exact .refl _

/-! ## Declarations -/

/-- The members of types are entered, type by type. -/
abbrev EntersAll : World → List Entry → List (Entry × TypeDecl) → World → Prop :=
  Threaded fun w e x w' => x.1 = e ∧ declareMembers w e = .ok (w', x.2)

theorem declareAllMembers_eq_ok (run : declareAllMembers es w = .ok (w', ds)) : EntersAll w es ds w' := by
  induction es generalizing w ds with
  | nil =>
    cases run
    exact .nil _
  | cons e es ih =>
    obtain ⟨⟨w₁, d⟩, here, run⟩ := bind_eq_ok.mp run
    obtain ⟨⟨w₂, ds'⟩, rest, run⟩ := bind_eq_ok.mp run
    cases run
    exact .cons ⟨rfl, here⟩ (ih rest)

/-- **Entering members changes no type.** -/
theorem EntersAll.keepsTypes (steps : EntersAll w es ds w') : KeepsTypes w w' :=
  steps.rel .refl .trans fun step => declareMembers_keepsTypes step.2

def Entry.head (e : Entry) : TypeHead := e.type.head?.getD default

theorem declareMembers_head (run : declareMembers w e = .ok (w', d)) : d.head = e.head := by
  unfold declareMembers at run
  extract_lets t key draft symbol entered valued at run
  obtain ⟨⟨w₁, invoke⟩, -, run⟩ := bind_eq_ok.mp run
  obtain ⟨⟨w₂, members⟩, -, run⟩ := bind_eq_ok.mp run
  cases run
  rfl

theorem EntersAll.heads (steps : EntersAll w es ds w') : ds.map (·.2.head) = es.map Entry.head :=
  (map_eq_map_of_forall₂ (steps.forall₂ fun step => (declareMembers_head step.2).symm)).symm

theorem resolveBodies_eq_ok {types : List TypeDecl} (run : resolveBodies w ds = .ok types) :
    List.Forall₂ (fun x d => ∃ members, resolveMembers w x.1 x.1.draft.members x.2.members = .ok members ∧
      d = { x.2 with members }) ds types := by
  induction ds generalizing types with
  | nil =>
    cases run
    exact .nil
  | cons x ds ih =>
    obtain ⟨members, here, run⟩ := bind_eq_ok.mp run
    obtain ⟨types', rest, run⟩ := bind_eq_ok.mp run
    cases run
    exact .cons ⟨members, here, rfl⟩ (ih rest)

/-! ## Loading -/

section Loading

variable {prelude : List TypeDraft} {file : String} {doc : Document} {c : Compilation}

/-- **The passes of loading.** -/
theorem ofDocument_eq_ok (load : ofDocument prelude file doc = .ok c) : ∃ w₁ w₂ w₃ w₄ known own known' own',
      declareTypes true (prelude.map some ++ doc.externals) { file, usings := standardUsings ++ doc.usings } = .ok (w₁, known) ∧
      declareTypes false doc.types w₁ = .ok (w₂, own) ∧ (known ++ own).foldlM declareSupertypes w₂ = .ok w₃ ∧
      EntersAll w₃ known known' w₄ ∧ EntersAll w₄ own own' c.world ∧ resolveBodies c.world own' = .ok c.types := by
  unfold ofDocument at load
  extract_lets w externals at load
  split at load
  · cases load
  · obtain ⟨⟨w₁, known⟩, hknown, load⟩ := bind_eq_ok.mp load
    obtain ⟨⟨w₂, own⟩, hown, load⟩ := bind_eq_ok.mp load
    obtain ⟨w₃, supertypes, load⟩ := bind_eq_ok.mp load
    obtain ⟨⟨w₄, known'⟩, members, load⟩ := bind_eq_ok.mp load
    obtain ⟨⟨w₅, own'⟩, members', load⟩ := bind_eq_ok.mp load
    obtain ⟨types, bodies, load⟩ := bind_eq_ok.mp load
    cases load
    exact ⟨w₁, w₂, w₃, w₄, known, own, known', own', hknown, hown, supertypes, declareAllMembers_eq_ok members,
      declareAllMembers_eq_ok members', bodies⟩

/-- The passes as far as they have to do with types. -/
theorem ofDocument_passes (load : ofDocument prelude file doc = .ok c) : ∃ w₁ w₂ w₃ w₄ known own,
      declareTypes true (prelude.map some ++ doc.externals) { file, usings := standardUsings ++ doc.usings } = .ok (w₁, known) ∧
      declareTypes false doc.types w₁ = .ok (w₂, own) ∧ known.foldlM declareSupertypes w₂ = .ok w₃ ∧
      own.foldlM declareSupertypes w₃ = .ok w₄ ∧ KeepsTypes w₄ c.world ∧ c.types.map (·.head) = own.map Entry.head ∧
      c.world.index = w₂.index := by
  obtain ⟨w₁, w₂, w₄, _, known, own, _, own', hknown, hown, supertypes, members, members', bodies⟩ := ofDocument_eq_ok load
  rw [List.foldlM_append] at supertypes
  obtain ⟨w₃, runKnown, runOwn⟩ := bind_eq_ok.mp supertypes
  have heads : own'.map (·.2.head) = c.types.map (·.head) := by
    refine map_eq_map_of_forall₂ ((resolveBodies_eq_ok bodies).imp ?_)
    rintro x _ ⟨members, -, rfl⟩
    rfl
  have keeps := members.keepsTypes.trans members'.keepsTypes
  exact ⟨w₁, w₂, w₃, w₄, known, own, hknown, hown, runKnown, runOwn, keeps, heads.symm.trans members'.heads,
    keeps.index.trans ((foldlM_keepsIndex runOwn).trans (foldlM_keepsIndex runKnown))⟩

/-- An entry of the document itself is about a definition whose name is the last part of a dotted name. -/
theorem declareTypes_dot {types : List (Option TypeDraft)} (run : declareTypes false types w = .ok (w', es)) :
    ∀ e ∈ es, '.' ∉ e.head.name.toList := by
  obtain ⟨drafts, -, steps⟩ := declareTypes_threaded run
  have each : List.Forall₂ (fun d e => e = ownEntry d) drafts es := by
    refine steps.forall₂ fun step => ?_
    rcases declareType_eq_ok step with ⟨_, _, external, _⟩ | ⟨-, -, entry⟩
    · cases external
    · exact entry
  intro e he
  obtain ⟨d, -, rfl⟩ := exists_mem_of_forall₂ each he
  exact dot_not_mem_splitQualified d.name

/-- **The names of declared types have no dots**: what stands before the last dot is their namespace. -/
theorem dot_not_mem_of_load (load : ofDocument prelude file doc = .ok c) {d : TypeDecl} (hd : d ∈ c.types) :
    '.' ∉ d.head.name.toList := by
  obtain ⟨w₁, w₂, w₃, w₄, known, own, -, hown, -, -, -, heads, -⟩ := ofDocument_passes load
  have mem : d.head ∈ own.map Entry.head := heads ▸ List.mem_map_of_mem hd
  obtain ⟨e, he, same⟩ := List.mem_map.mp mem
  rw [← same]
  exact declareTypes_dot hown e he

end Loading

end Compilation

end Polyglot
