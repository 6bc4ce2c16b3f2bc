import TypedLisp.Proofs.Lockstep

/-!
# The rules of checking in lockstep

Under a lawful correspondence every rule is alike on both sides, provided that the
checking of smaller expressions is and that the declared names are admitted. So
checking is alike to every depth (`Checker.typeOf_alike`): an expression whose declared
names are admitted, in scopes that correspond, has no outcome on either side, fails on
both with the same error, or has corresponding types. If the correspondence is lenient, it
may also fail on the first side alone.
-/

set_option autoImplicit false

namespace TypedLisp

namespace Correspondence

variable {World : Type}

/-- Parameters with the same names and with types that correspond and are found under
their names. -/
def Parameters (pair : Correspondence World) (world : World) :
    List (String × TypeId) → List (String × TypeId) → Prop :=
  List.Forall₂ fun parameter other =>
    parameter.1 = other.1 ∧ pair.Named world parameter.2 other.2

variable {pair : Correspondence World} {world reached : World}

theorem Parameters.later {parameters others : List (String × TypeId)} (lawful : pair.Lawful)
    (after : pair.Later world reached)
    (grows : Registry.Grows (pair.left world).types (pair.left reached).types)
    (same : pair.Parameters world parameters others) : pair.Parameters reached parameters others :=
  same.imp fun _ _ both => ⟨both.1, lawful.named_later after grows both.2⟩

theorem Parameters.named {parameters others : List (String × TypeId)}
    (same : pair.Parameters world parameters others) :
    List.Forall₂ (pair.Named world) (parameters.map Prod.snd) (others.map Prod.snd) := by
  rw [List.forall₂_map_left_iff, List.forall₂_map_right_iff]
  exact same.imp fun _ _ both => both.2

theorem Parameters.plain {parameters others : List (String × TypeId)} (lawful : pair.Lawful)
    (same : pair.Parameters world parameters others) :
    ∀ parameter ∈ parameters, (pair.left world).types.IsPlain parameter.2 := by
  induction same with
  | nil => simp
  | cons both _ ih =>
      intro parameter among
      rcases List.mem_cons.1 among with rfl | among
      · exact lawful.plain both.2
      · exact ih parameter among

theorem covers_part {expression part : Expr} {form : Form} (covers : pair.Covers expression)
    (classified : Form.classify expression = .ok form) (among : part ∈ form.parts) :
    pair.Covers part :=
  fun name declares => covers name (.inside classified among declares)

end Correspondence

namespace Checker

open CheckM Correspondence

variable {World : Type} {pair : Correspondence World} {world : World}
  {visit : Expr → ScopeId → CheckM TypeId} {scope otherScope : ScopeId}

/-- The checking of smaller expressions is alike on both sides. -/
def AlikeVisit (pair : Correspondence World) (visit : Expr → ScopeId → CheckM TypeId) : Prop :=
  ∀ {world : World} (expression : Expr) {scope otherScope : ScopeId}, pair.Covers expression →
    pair.Scopes world scope otherScope →
      pair.Alike world (visit expression scope) (visit expression otherScope) pair.Types

/-! ## Questions -/

theorem grows_of_ask {α : Type} {expression : Expr} {question : Session → Except Fault α}
    {session reached : Session} {outcome : Except Error α}
    (run : (ask expression question).runOn session = some (outcome, reached)) :
    Registry.Grows session.types reached.types := by
  rw [runOn_ask] at run
  obtain ⟨_, rfl⟩ := Prod.mk.inj (Option.some.inj run)
  exact .refl _

theorem expect_alike (lawful : pair.Lawful) (expression : Expr)
    {given otherGiven expected otherExpected : TypeId} (types : pair.Types world given otherGiven)
    (others : pair.Types world expected otherExpected) :
    pair.Alike world (ask expression fun session => session.types.expect given expected)
      (ask expression fun session => session.types.expect otherGiven otherExpected)
      fun _ _ _ => True :=
  .ask lawful expression (.of_eq (lawful.expect types others) fun _ _ => trivial)

theorem operand_alike (lawful : pair.Lawful) (expression : Expr) {given otherGiven : TypeId}
    (operator : Arithmetic) (types : pair.Types world given otherGiven) :
    pair.Alike world
      (ask expression fun session => session.types.expectOperand given (operandTypes operator))
      (ask expression fun session => session.types.expectOperand otherGiven (operandTypes operator))
      fun _ _ _ => True := by
  refine .ask lawful expression (.of_eq (lawful.operand types ?_) fun _ _ => trivial)
  cases operator <;> decide

/-! ## Sequences and bodies -/

theorem sequence_alike (lawful : pair.Lawful) (alike : AlikeVisit pair visit) {items : List Expr}
    (covers : ∀ item ∈ items, pair.Covers item) (scopes : pair.Scopes world scope otherScope) :
    pair.Alike world (sequence visit items scope) (sequence visit items otherScope) pair.Types := by
  induction items generalizing world with
  | nil => exact .throw lawful _
  | cons item items ih =>
      cases items with
      | nil => exact alike item (covers item List.mem_cons_self) scopes
      | cons next items =>
          refine .bind lawful (alike item (covers item List.mem_cons_self) scopes)
            fun later _ _ => ?_
          exact ih (fun item among => covers item (List.mem_cons_of_mem _ among))
            (lawful.scopes_later later scopes)

theorem checkBody_alike (lawful : pair.Lawful) (alike : AlikeVisit pair visit) {body : Expr}
    (covers : pair.Covers body) (scopes : pair.Scopes world scope otherScope) :
    pair.Alike world (checkBody visit body scope) (checkBody visit body otherScope)
      pair.Types := by
  unfold checkBody
  split
  · rename_i item items
    exact sequence_alike lawful alike
      (fun _ among => covers_part covers (Form.classify_block item items) among) scopes
  · exact alike _ covers scopes

/-! ## Functions -/

theorem parameterTypes_alike (lawful : pair.Lawful) (parameters : List (String × String))
    (expression : Expr) :
    pair.Alike world (parameterTypes parameters expression) (parameterTypes parameters expression)
      fun later typed otherTyped =>
        Registry.Grows (pair.left world).types (pair.left later).types ∧
          pair.Parameters later typed otherTyped := by
  refine .mapM lawful (fun later grows both => ⟨both.1, lawful.named_later later grows both.2⟩) ?_
  rintro ⟨name, text⟩ _ later _
  refine .bind lawful (lawful.resolve later text expression) fun {reached _ _} _ run named => ?_
  obtain ⟨evolves, _⟩ := (resolve_sound expression text (lawful.wellFormed later)).ok run
  exact .pure lawful ⟨evolves.types, rfl, named⟩

theorem bindAll_reaches (lawful : pair.Lawful) {parameters others : List (String × TypeId)}
    (scopes : pair.Scopes world scope otherScope)
    (same : List.Forall₂ (fun parameter other =>
      parameter.1 = other.1 ∧ pair.Types world parameter.2 other.2) parameters others) :
    pair.Reaches world
      { pair.left world with
        scopes := parameters.foldl (fun scopes (name, type) => scopes.define scope name type)
          (pair.left world).scopes }
      { pair.right world with
        scopes := others.foldl (fun scopes (name, type) => scopes.define otherScope name type)
          (pair.right world).scopes } fun _ => True := by
  induction parameters generalizing world others with
  | nil =>
      cases same
      exact ⟨world, lawful.refl world, rfl, rfl, trivial⟩
  | cons parameter parameters ih =>
      cases same with
      | @cons _ other _ others both rest =>
          obtain ⟨name, type⟩ := parameter
          obtain ⟨otherName, otherType⟩ := other
          obtain ⟨rfl, types⟩ := both
          obtain ⟨defined, later, left, right, _⟩ := lawful.define name scopes types
          have stays := rest.imp fun _ _ both =>
            And.intro both.1 (lawful.types_later later both.2)
          have reaches := (ih (lawful.scopes_later later scopes) stays).since lawful later
          rw [left, right] at reaches
          exact reaches

/-- A body is checked after the parameters have been bound in the same scope. -/
theorem boundBody_alike (lawful : pair.Lawful) (alike : AlikeVisit pair visit)
    {parameters others : List (String × TypeId)} {body : Expr} (covers : pair.Covers body)
    (scopes : pair.Scopes world scope otherScope)
    (same : List.Forall₂ (fun parameter other =>
      parameter.1 = other.1 ∧ pair.Types world parameter.2 other.2) parameters others) :
    pair.Alike world
      (do modifyScopes fun scopes =>
            parameters.foldl (fun scopes (name, type) => scopes.define scope name type) scopes
          checkBody visit body scope)
      (do modifyScopes fun scopes =>
            others.foldl (fun scopes (name, type) => scopes.define otherScope name type) scopes
          checkBody visit body otherScope) pair.Types :=
  .bind lawful (.changes (bindAll_reaches lawful scopes same)) fun later _ _ =>
    checkBody_alike lawful alike covers (lawful.scopes_later later scopes)

theorem checkFunction_alike (lawful : pair.Lawful) (sound : SoundVisit visit visit)
    (alike : AlikeVisit pair visit) {parameters others : List (String × TypeId)}
    {result otherResult : TypeId} {body : Expr} (expression : Expr) (covers : pair.Covers body)
    (scopes : pair.Scopes world scope otherScope) (same : pair.Parameters world parameters others)
    (named : pair.Named world result otherResult) :
    pair.Alike world (checkFunction visit parameters result body scope expression)
      (checkFunction visit others otherResult body otherScope expression) pair.Named := by
  have wellFormed := lawful.wellFormed world
  have live := lawful.live scopes
  have plain := same.plain lawful
  have bodies : pair.Alike world
      (inChild scope fun inner => do
        modifyScopes fun scopes =>
          parameters.foldl (fun scopes (name, type) => scopes.define inner name type) scopes
        checkBody visit body inner)
      (inChild otherScope fun inner => do
        modifyScopes fun scopes =>
          others.foldl (fun scopes (name, type) => scopes.define inner name type) scopes
        checkBody visit body inner) pair.Types := by
    refine .inChild lawful scopes
      (boundBody_sound sound parameters body (wellFormed.opened live)
        (wellFormed.isLive_next scope) plain).evolves
      fun _ _ later inner => boundBody_alike lawful alike covers inner ?_
    exact same.imp fun _ _ both =>
      ⟨both.1, lawful.types_later later (lawful.types_of_named both.2)⟩
  refine .bind lawful bodies fun {middle actual otherActual} first run types => ?_
  obtain ⟨evolves, _⟩ := (functionBody_sound sound parameters body wellFormed live
    (wellFormed.isLive_next scope) plain).ok run
  have namedMiddle := lawful.named_later first evolves.types named
  refine .bind lawful (expect_alike lawful expression types (lawful.types_of_named namedMiddle))
    fun {last _ _} second run _ => ?_
  have further := grows_of_ask run
  exact lawful.function ((same.later lawful first evolves.types).later lawful second
    further).named (lawful.named_later second further namedMiddle)

/-- The parameters and the result of a signature. -/
theorem signature_alike {α β : Type} (lawful : pair.Lawful) (parameters : List (String × String))
    (result : String) (expression : Expr)
    {next : List (String × TypeId) → TypeId → CheckM α}
    {otherNext : List (String × TypeId) → TypeId → CheckM β} {good : World → α → β → Prop}
    (rest : ∀ {later typed otherTyped type otherType}, pair.Later world later →
      pair.Parameters later typed otherTyped → pair.Named later type otherType →
        pair.Alike later (next typed type) (otherNext otherTyped otherType) good) :
    pair.Alike world
      (do let typed ← parameterTypes parameters expression
          let type ← registering expression (Registry.resolve result)
          next typed type)
      (do let typed ← parameterTypes parameters expression
          let type ← registering expression (Registry.resolve result)
          otherNext typed type) good := by
  refine .bind lawful (parameterTypes_alike lawful parameters expression)
    fun {middle _ _} first _ found => ?_
  refine .bind lawful (lawful.resolve middle result expression)
    fun {last _ _} second run named => ?_
  obtain ⟨evolves, _⟩ := (resolve_sound expression result (lawful.wellFormed middle)).ok run
  exact rest (lawful.trans first second) (found.2.later lawful second evolves.types) named

theorem signatureType_alike (lawful : pair.Lawful) (signature : Signature) (expression : Expr) :
    pair.Alike world (signatureType signature expression) (signatureType signature expression)
      pair.Named :=
  signature_alike lawful _ _ expression fun _ same named => lawful.function same.named named

theorem keepTemplate_alike (lawful : pair.Lawful) (signature : Signature)
    (covers : pair.Covers signature.body) (scopes : pair.Scopes world scope otherScope) :
    pair.Alike world (keepTemplate signature scope) (keepTemplate signature otherScope)
      pair.Types :=
  .of_ok (runOn_keepTemplate signature scope _) (runOn_keepTemplate signature otherScope _)
    (lawful.withTemplate ⟨signature.generics, signature.parameters, signature.result,
      signature.body, scope⟩ scopes covers) fun types => types

theorem checkLambda_alike (lawful : pair.Lawful) (sound : SoundVisit visit visit)
    (alike : AlikeVisit pair visit) (signature : Signature) (expression : Expr)
    (covers : pair.Covers signature.body) (scopes : pair.Scopes world scope otherScope) :
    pair.Alike world (checkLambda visit signature scope expression)
      (checkLambda visit signature otherScope expression) pair.Types := by
  unfold checkLambda
  split
  · exact keepTemplate_alike lawful signature covers scopes
  · refine signature_alike lawful _ _ expression fun later same named => ?_
    exact (checkFunction_alike lawful sound alike expression covers
      (lawful.scopes_later later scopes) same named).mono lawful.types_of_named

theorem instantiate_alike (lawful : pair.Lawful) (sound : SoundVisit visit visit)
    (alike : AlikeVisit pair visit) {generic otherGeneric : TypeId} (typeArguments : List String)
    (callee expression : Expr) (types : pair.Types world generic otherGeneric) :
    pair.Alike world (instantiate visit generic typeArguments callee expression)
      (instantiate visit otherGeneric typeArguments callee expression) pair.Types := by
  refine .get lawful ?_
  rcases lawful.template types with
    ⟨missing, otherMissing⟩ | ⟨template, inner, found, otherFound, scopes, covers⟩
  · rw [missing, otherMissing]
    exact .ask lawful expression (lawful.name types ▸ .error _)
  · rw [found, otherFound]
    dsimp only
    split
    · refine signature_alike lawful _ _ expression fun {last _ _ _ _} first same named => ?_
      refine .bind lawful (.changes (lawful.emit last _)) fun {announced _ _} second run _ => ?_
      have grows : Registry.Grows (pair.left last).types (pair.left announced).types := by
        obtain ⟨_, same⟩ := Prod.mk.inj (Option.some.inj run)
        rw [← same]
        exact .refl _
      have all := lawful.trans first second
      refine .get lawful ?_
      rw [lawful.active (lawful.types_later all types)]
      split
      · exact .throw lawful _
      · refine .guarded lawful (lawful.types_later all types) fun {entered} left _ third => ?_
        have entering : Registry.Grows (pair.left announced).types (pair.left entered).types := by
          rw [left]
          exact .refl _
        exact (checkFunction_alike lawful sound alike expression covers
          (lawful.scopes_later (lawful.trans all third) scopes)
          ((same.later lawful second grows).later lawful third entering)
          (lawful.named_later third entering (lawful.named_later second grows named))).mono
          lawful.types_of_named
    · exact .throw lawful _

/-! ## Declarations -/

theorem checkTypeDecl_alike (lawful : pair.Lawful) {name : String} (base : TypeBase)
    (expression : Expr) (admits : pair.Admits name) :
    pair.Alike world (checkTypeDecl name base expression) (checkTypeDecl name base expression)
      pair.Types := by
  have registers : pair.Registers world (register name base) (register name base) pair.Types := by
    cases base with
    | «alias» parent => exact lawful.declareAlias world parent admits
    | union members => exact lawful.declareUnion world members admits
  rw [checkTypeDecl_eq]
  refine .bind lawful (registers expression) fun {later _ _} _ _ types => ?_
  refine .bind lawful (.changes (lawful.emit later _)) fun emitted _ _ => ?_
  exact .pure lawful (lawful.types_later emitted types)

theorem superclass_alike (lawful : pair.Lawful) (superclass : Option String) (expression : Expr) :
    pair.Alike world (superclass.mapM fun parent => ask expression (·.classNamed parent))
      (superclass.mapM fun parent => ask expression (·.classNamed parent))
      fun later superclass other => Option.Rel (pair.Types later) superclass other := by
  cases superclass with
  | none => exact .pure lawful .none
  | some parent =>
      simp only [Option.mapM_some, map_eq_pure_bind]
      refine .bind lawful (.ask lawful expression (lawful.classNamed world parent))
        fun _ _ types => ?_
      exact .pure lawful (.some types)

/-- The start of the declaration of a class fails on both sides, or the rest goes on
where the class has been declared on both. -/
theorem openClass_alike {α β : Type} (lawful : pair.Lawful) (expression : Expr) {name : String}
    {superclass otherSuperclass : Option TypeId} {next : ScopeId → TypeId → CheckM α}
    {otherNext : ScopeId → TypeId → CheckM β} {good : World → α → β → Prop}
    (admits : pair.Admits name)
    (inherited : Option.Rel (pair.Types world) superclass otherSuperclass)
    (plain : ∀ id ∈ superclass, (pair.left world).types.IsPlain id)
    (scopes : pair.Scopes world scope otherScope)
    (rest : ∀ {later type otherType}, pair.Later world later →
      (pair.left world).types.names.get? name = none → pair.Types later type otherType →
        pair.Scopes later ((pair.left world).next scope) ((pair.right world).next otherScope) →
          pair.Alike later (next ((pair.left world).next scope) type)
            (otherNext ((pair.right world).next otherScope) otherType) good) :
    pair.Alike world (openClass name superclass scope expression next)
      (openClass name otherSuperclass otherScope expression otherNext) good := by
  have starts := runOn_openClass name superclass scope expression next (pair.left world)
  have otherStarts := runOn_openClass name otherSuperclass otherScope expression otherNext
    (pair.right world)
  rw [← lawful.taken] at otherStarts
  by_cases taken : (pair.left world).types.names.contains name = true
  · rw [if_pos taken] at starts otherStarts
    obtain ⟨opened, later, left, right, inner⟩ := lawful.opens scopes
    have closes := lawful.closes scopes later left right inner (lawful.refl opened)
      (.refl _ (lawful.wellFormed opened))
    rw [left, right] at closes
    exact .of_error starts otherStarts closes
  · rw [if_neg taken] at starts otherStarts
    have unclaimed := Registry.get?_names_of_contains taken
    obtain ⟨declared, later, left, right, types, inner⟩ :=
      lawful.withClass admits inherited plain scopes unclaimed
    rw [← left] at starts
    rw [← right] at otherStarts
    exact .moved lawful later starts otherStarts (rest later unclaimed types inner)

theorem checkClassDecl_alike (lawful : pair.Lawful) (alike : AlikeVisit pair visit)
    {name : String} (parent : Option String) {body : Expr} (expression : Expr)
    (admits : pair.Admits name) (covers : pair.Covers body)
    (scopes : pair.Scopes world scope otherScope) :
    pair.Alike world (checkClassDecl visit name parent body scope expression)
      (checkClassDecl visit name parent body otherScope expression) pair.Types := by
  rw [checkClassDecl_eq, checkClassDecl_eq]
  refine .bind lawful (superclass_alike lawful parent expression)
    fun {start superclass _} begins run inherited => ?_
  have plain : ∀ id ∈ superclass, (pair.left start).types.IsPlain id := by
    have sound : Sound _ _ ∅ _ _ _ := superclass_sound parent expression (lawful.wellFormed world)
    exact (sound.ok run).2
  have scopesStart := lawful.scopes_later begins scopes
  refine openClass_alike lawful expression admits inherited plain scopesStart
    fun {declared type otherType} declares unclaimed types inner => ?_
  unfold bindClass
  have scopesDeclared := lawful.scopes_later declares scopesStart
  refine .get lawful ?_
  refine .bind lawful (.changes (lawful.define name scopesDeclared types))
    fun {defined _ _} defines _ _ => ?_
  refine .bind lawful (.changes (lawful.emit defined _)) fun {announced _ _} emits _ _ => ?_
  have later := lawful.trans defines emits
  have bodies := checkBody_alike lawful alike covers (lawful.scopes_later later inner)
  refine .bind lawful (.undoing lawful bodies fun {reached} further => ?_)
    fun {ended _ _} ends _ _ => .pure lawful (lawful.types_later (lawful.trans later ends) types)
  have sinceDeclared := lawful.trans later further
  obtain ⟨restored, restores, left, right, _⟩ :=
    lawful.restore name scopesDeclared sinceDeclared
  have forgets := (lawful.forget unclaimed (lawful.trans (lawful.trans declares sinceDeclared)
    restores)).since lawful restores
  rw [left, right] at forgets
  exact forgets

theorem define_alike (lawful : pair.Lawful) (name : String) {type otherType : TypeId}
    (scopes : pair.Scopes world scope otherScope) (types : pair.Types world type otherType) :
    pair.Alike world (modifyScopes (·.define scope name type))
      (modifyScopes (·.define otherScope name otherType)) fun _ _ _ => True :=
  .changes (lawful.define name scopes types)

theorem variableType_alike (lawful : pair.Lawful) (typeText : Option String)
    {actual otherActual : TypeId} (expression : Expr)
    (types : pair.Types world actual otherActual) :
    pair.Alike world (variableType typeText actual expression)
      (variableType typeText otherActual expression) pair.Types := by
  cases typeText with
  | none => exact .pure lawful types
  | some typeText =>
      refine .bind lawful (lawful.resolve world typeText expression)
        fun {middle _ _} later _ named => ?_
      have declared := lawful.types_of_named named
      refine .bind lawful (expect_alike lawful expression (lawful.types_later later types) declared)
        fun further _ _ => ?_
      exact .pure lawful (lawful.types_later further declared)

theorem checkVariable_alike (lawful : pair.Lawful) (alike : AlikeVisit pair visit)
    (target : Binding) {value : Expr} (expression : Expr) (covers : pair.Covers value)
    (scopes : pair.Scopes world scope otherScope) :
    pair.Alike world (checkVariable visit target value scope expression)
      (checkVariable visit target value otherScope expression) pair.Types := by
  refine .bind lawful (alike value covers scopes) fun {middle _ _} first _ actual => ?_
  refine .bind lawful (variableType_alike lawful target.typeText expression actual)
    fun {last _ _} second _ types => ?_
  refine .bind lawful (define_alike lawful target.name
    (lawful.scopes_later (lawful.trans first second) scopes) types) fun third _ _ => ?_
  exact .pure lawful (lawful.types_later third types)

theorem announce_alike (lawful : pair.Lawful) (name : String) (signature : Signature)
    (expression : Expr) (scopes : pair.Scopes world scope otherScope) :
    pair.Alike world (announce name signature scope expression)
      (announce name signature otherScope expression) fun _ _ _ => True := by
  unfold announce
  split
  · exact .pure lawful trivial
  · refine .bind lawful (signatureType_alike lawful signature expression)
      fun later _ named => ?_
    exact define_alike lawful name (lawful.scopes_later later scopes)
      (lawful.types_of_named named)

theorem checkFunctionDecl_alike (lawful : pair.Lawful) (alike : AlikeVisit pair visit)
    {name : String} {signature : Signature} (expression : Expr)
    (covers : pair.Covers (.list [.symbol "var", .symbol name, signature.toLambda]))
    (scopes : pair.Scopes world scope otherScope) :
    pair.Alike world (checkFunctionDecl visit name signature scope expression)
      (checkFunctionDecl visit name signature otherScope expression) pair.Types := by
  refine .get lawful ?_
  refine .bind lawful (announce_alike lawful name signature expression scopes)
    fun {announced _ _} first _ _ => ?_
  refine .undoing lawful (alike _ covers (lawful.scopes_later first scopes))
    fun {reached} second => ?_
  exact lawful.restore name scopes (lawful.trans first second)

/-! ## Operations -/

theorem checkArithmetic_alike (lawful : pair.Lawful) (alike : AlikeVisit pair visit)
    (operator : Arithmetic) {left right : Expr} (expression : Expr) (covers : pair.Covers left)
    (coversRight : pair.Covers right) (scopes : pair.Scopes world scope otherScope) :
    pair.Alike world (checkArithmetic visit operator left right scope expression)
      (checkArithmetic visit operator left right otherScope expression) pair.Types := by
  refine .bind lawful (alike left covers scopes) fun {one _ _} first _ leftTypes => ?_
  refine .bind lawful (alike right coversRight (lawful.scopes_later first scopes))
    fun {two _ _} second _ rightTypes => ?_
  have leftTypes := lawful.types_later second leftTypes
  refine .bind lawful (operand_alike lawful expression operator leftTypes)
    fun {three _ _} third _ _ => ?_
  have rightTypes := lawful.types_later third rightTypes
  refine .bind lawful (operand_alike lawful expression operator rightTypes)
    fun {four _ _} fourth _ _ => ?_
  have rightTypes := lawful.types_later fourth rightTypes
  refine .bind lawful (expect_alike lawful expression rightTypes
    (lawful.types_later (lawful.trans third fourth) leftTypes)) fun last _ _ => ?_
  exact .pure lawful (lawful.types_later last rightTypes)

theorem checkComparison_alike (lawful : pair.Lawful) (alike : AlikeVisit pair visit)
    {left right : Expr} (expression : Expr) (covers : pair.Covers left)
    (coversRight : pair.Covers right) (scopes : pair.Scopes world scope otherScope) :
    pair.Alike world (checkComparison visit left right scope expression)
      (checkComparison visit left right otherScope expression) pair.Types := by
  refine .bind lawful (alike left covers scopes) fun {one _ _} first _ leftTypes => ?_
  refine .bind lawful (alike right coversRight (lawful.scopes_later first scopes))
    fun {two _ _} second _ rightTypes => ?_
  refine .bind lawful (expect_alike lawful expression rightTypes
    (lawful.types_later second leftTypes)) fun _ _ _ => ?_
  exact .pure lawful (lawful.primitive (by decide))

theorem arguments_alike (lawful : pair.Lawful) (sound : SoundVisit visit visit)
    (alike : AlikeVisit pair visit) {arguments : List Expr}
    (covers : ∀ argument ∈ arguments, pair.Covers argument)
    (scopes : pair.Scopes world scope otherScope) :
    pair.Alike world (arguments.mapM (visit · scope)) (arguments.mapM (visit · otherScope))
      fun later types others => List.Forall₂ (pair.Types later) types others := by
  have all : pair.Alike world (arguments.mapM (visit · scope)) (arguments.mapM (visit · otherScope))
      fun later types others =>
        Registry.Grows (pair.left world).types (pair.left later).types ∧
          List.Forall₂ (pair.Types later) types others := by
    refine .mapM lawful (fun later _ types => lawful.types_later later types) ?_
    intro argument among later after
    have scopes := lawful.scopes_later after scopes
    refine (alike argument (covers argument among) scopes).imp fun run types => ⟨?_, types⟩
    obtain ⟨evolves, _⟩ := (sound argument (lawful.wellFormed later) (lawful.live scopes)).ok run
    exact evolves.types
  exact all.mono fun found => found.2

theorem checkConstruct_alike (lawful : pair.Lawful) (sound : SoundVisit visit visit)
    (alike : AlikeVisit pair visit) (className : String) {arguments : List Expr}
    (expression : Expr) (covers : ∀ argument ∈ arguments, pair.Covers argument)
    (scopes : pair.Scopes world scope otherScope) :
    pair.Alike world (checkConstruct visit className arguments scope expression)
      (checkConstruct visit className arguments otherScope expression) pair.Types := by
  refine .bind lawful (.ask lawful expression (lawful.classNamed world className))
    fun {one _ _} first _ object => ?_
  refine .bind lawful (arguments_alike lawful sound alike covers
    (lawful.scopes_later first scopes)) fun {two _ _} second _ types => ?_
  have object := lawful.types_later second object
  refine .bind lawful (.ask lawful expression (lawful.field "constructor" object))
    fun {three _ _} third _ constructor => ?_
  have object := lawful.types_later third object
  refine .bind lawful (.ask lawful expression (lawful.callResult "constructor" constructor
    (.cons object (types.imp fun _ _ => lawful.types_later third)))) fun last _ _ => ?_
  exact .pure lawful (lawful.types_later last object)

theorem checkProperty_alike (lawful : pair.Lawful) (alike : AlikeVisit pair visit) {object : Expr}
    (field : String) (expression : Expr) (covers : pair.Covers object)
    (scopes : pair.Scopes world scope otherScope) :
    pair.Alike world (checkProperty visit object field scope expression)
      (checkProperty visit object field otherScope expression) pair.Types :=
  .bind lawful (alike object covers scopes) fun _ _ types =>
    .ask lawful expression (lawful.field field types)

/-- A name is looked up alike, or it is not found in the first session and nothing is asked
of the second. -/
theorem lookup_alike (lawful : pair.Lawful) (name : String) (expression : Expr)
    (scopes : pair.Scopes world scope otherScope) :
    pair.Alike world (ask expression fun session => session.scopes.lookup scope name)
      (ask expression fun session => session.scopes.lookup otherScope name) pair.Types := by
  rcases lawful.lookup name scopes with answers | ⟨lenient, fault, missing⟩
  · exact .ask lawful expression answers
  · have run := runOn_ask expression (fun session => session.scopes.lookup scope name)
      (pair.left world)
    rw [missing] at run
    exact .spared lenient run

theorem checkAssign_alike (lawful : pair.Lawful) (alike : AlikeVisit pair visit)
    {target : AssignTarget} {value : Expr} (expression : Expr)
    (covers : ∀ part ∈ (Form.assign target value).parts, pair.Covers part)
    (scopes : pair.Scopes world scope otherScope) :
    pair.Alike world (checkAssign visit target value scope expression)
      (checkAssign visit target value otherScope expression) pair.Types := by
  have targeted : pair.Alike world (targetType visit target scope expression)
      (targetType visit target otherScope expression) pair.Types := by
    cases target with
    | name name => exact lookup_alike lawful name expression scopes
    | property object field =>
        exact checkProperty_alike lawful alike field expression
          (covers object (by simp [Form.parts])) scopes
  have coversValue : pair.Covers value := covers value (by cases target <;> simp [Form.parts])
  refine .bind lawful targeted fun {one _ _} first _ declared => ?_
  refine .bind lawful (alike value coversValue (lawful.scopes_later first scopes))
    fun {two _ _} second _ actual => ?_
  have declared := lawful.types_later second declared
  refine .bind lawful (expect_alike lawful expression actual declared) fun last _ _ => ?_
  exact .pure lawful (lawful.types_later last declared)

theorem checkCondition_alike (lawful : pair.Lawful) (alike : AlikeVisit pair visit)
    {condition : Expr} (covers : pair.Covers condition)
    (scopes : pair.Scopes world scope otherScope) :
    pair.Alike world (checkCondition visit condition scope)
      (checkCondition visit condition otherScope) fun _ _ _ => True :=
  .bind lawful (alike condition covers scopes) fun _ _ types =>
    expect_alike lawful condition types (lawful.primitive (by decide))

theorem checkConsequent_alike (lawful : pair.Lawful) (sound : SoundVisit visit visit)
    (alike : AlikeVisit pair visit) (narrowing : Option Narrowing) {consequent : Expr}
    (expression : Expr) (covers : pair.Covers consequent)
    (scopes : pair.Scopes world scope otherScope) :
    pair.Alike world (checkConsequent visit narrowing consequent scope expression)
      (checkConsequent visit narrowing consequent otherScope expression) pair.Types := by
  cases narrowing with
  | none => exact alike consequent covers scopes
  | some narrowing =>
      refine .bind lawful (lawful.resolve world narrowing.typeName expression)
        fun {middle _ _} first _ named => ?_
      have scopes := lawful.scopes_later first scopes
      have wellFormed := lawful.wellFormed middle
      refine .inChild lawful scopes ?_ fun {opened} _ _ later inner => ?_
      · exact (narrowedBody_sound sound narrowing consequent
          (wellFormed.opened (lawful.live scopes)) (wellFormed.isLive_next scope)
          (lawful.plain named)).evolves
      · have types := lawful.types_later later (lawful.types_of_named named)
        refine .bind lawful (define_alike lawful narrowing.name inner types) fun further _ _ => ?_
        exact alike consequent covers (lawful.scopes_later further inner)

theorem checkBranch_alike (lawful : pair.Lawful) (sound : SoundVisit visit visit)
    (alike : AlikeVisit pair visit) (narrowing : Option Narrowing)
    {condition consequent alternative : Expr} (expression : Expr)
    (covers : ∀ part ∈ [condition, consequent, alternative], pair.Covers part)
    (scopes : pair.Scopes world scope otherScope) :
    pair.Alike world
      (checkBranch visit condition narrowing consequent alternative scope expression)
      (checkBranch visit condition narrowing consequent alternative otherScope expression)
      pair.Types := by
  refine .bind lawful (checkCondition_alike lawful alike (covers condition (by simp)) scopes)
    fun {one _ _} first _ _ => ?_
  have scopes := lawful.scopes_later first scopes
  refine .bind lawful (checkConsequent_alike lawful sound alike narrowing expression
    (covers consequent (by simp)) scopes) fun {two _ _} second _ types => ?_
  refine .bind lawful (alike alternative (covers alternative (by simp))
    (lawful.scopes_later second scopes)) fun {three _ _} third _ others => ?_
  have types := lawful.types_later third types
  refine .bind lawful (expect_alike lawful expression others types) fun last _ _ => ?_
  exact .pure lawful (lawful.types_later last types)

theorem calledType_alike (lawful : pair.Lawful) (sound : SoundVisit visit visit)
    (alike : AlikeVisit pair visit) {calleeType otherType : TypeId}
    (typeArguments : Option (List String)) (callee expression : Expr)
    (types : pair.Types world calleeType otherType) :
    pair.Alike world (calledType visit calleeType typeArguments callee expression)
      (calledType visit otherType typeArguments callee expression) pair.Types := by
  cases typeArguments with
  | some typeArguments =>
      exact instantiate_alike lawful sound alike typeArguments callee expression types
  | none =>
      refine .ask lawful expression ?_
      rcases lawful.template types with
        ⟨missing, otherMissing⟩ | ⟨template, inner, found, otherFound, _, _⟩
      · rw [missing, otherMissing]
        exact .ok types
      · rw [found, otherFound]
        exact .error _

theorem checkCall_alike (lawful : pair.Lawful) (sound : SoundVisit visit visit)
    (alike : AlikeVisit pair visit) {callee : Expr} (typeArguments : Option (List String))
    {arguments : List Expr} (expression : Expr)
    (covers : ∀ part ∈ callee :: arguments, pair.Covers part)
    (scopes : pair.Scopes world scope otherScope) :
    pair.Alike world (checkCall visit callee typeArguments arguments scope expression)
      (checkCall visit callee typeArguments arguments otherScope expression) pair.Types := by
  refine .bind lawful (alike callee (covers callee List.mem_cons_self) scopes)
    fun {one _ _} first _ calleeTypes => ?_
  refine .bind lawful (calledType_alike lawful sound alike typeArguments callee expression
    calleeTypes) fun {two _ _} second _ functions => ?_
  refine .bind lawful (arguments_alike lawful sound alike
    (fun argument among => covers argument (List.mem_cons_of_mem _ among))
    (lawful.scopes_later (lawful.trans first second) scopes)) fun third _ types => ?_
  exact .ask lawful expression
    (lawful.callResult callee.text (lawful.types_later third functions) types)

/-! ## Forms -/

theorem block_alike (lawful : pair.Lawful) (sound : SoundVisit visit visit)
    (alike : AlikeVisit pair visit) {items : List Expr}
    (covers : ∀ item ∈ items, pair.Covers item) (scopes : pair.Scopes world scope otherScope) :
    pair.Alike world (inChild scope fun inner => sequence visit items inner)
      (inChild otherScope fun inner => sequence visit items inner) pair.Types := by
  have wellFormed := lawful.wellFormed world
  exact .inChild lawful scopes
    (sequence_sound sound items (wellFormed.opened (lawful.live scopes))
      (wellFormed.isLive_next scope)).evolves
    fun _ _ _ inner => sequence_alike lawful alike covers inner

theorem checkForm_alike (lawful : pair.Lawful) (sound : SoundVisit visit visit)
    (alike : AlikeVisit pair visit) (form : Form) (expression : Expr)
    (admits : ∀ name ∈ form.declaredName?, pair.Admits name)
    (covers : ∀ part ∈ form.parts, pair.Covers part)
    (scopes : pair.Scopes world scope otherScope) :
    pair.Alike world (checkForm visit form scope expression)
      (checkForm visit form otherScope expression) pair.Types := by
  cases form with
  | literal kind =>
      refine .pure lawful (lawful.primitive ?_)
      cases kind <;> decide
  | arithmetic operator left right =>
      exact checkArithmetic_alike lawful alike operator expression (covers left (by simp [Form.parts]))
        (covers right (by simp [Form.parts])) scopes
  | comparison operator left right =>
      exact checkComparison_alike lawful alike expression (covers left (by simp [Form.parts]))
        (covers right (by simp [Form.parts])) scopes
  | typeDecl name base => exact checkTypeDecl_alike lawful base expression (admits name rfl)
  | classDecl name superclass body =>
      exact checkClassDecl_alike lawful alike superclass expression (admits name rfl)
        (covers body (by simp [Form.parts])) scopes
  | construct => exact checkConstruct_alike lawful sound alike _ expression covers scopes
  | super name => exact .ask lawful expression (lawful.superclassOf world name)
  | property object field =>
      exact checkProperty_alike lawful alike field expression (covers object (by simp [Form.parts]))
        scopes
  | varDecl target value =>
      exact checkVariable_alike lawful alike target expression (covers value (by simp [Form.parts]))
        scopes
  | identifier name => exact lookup_alike lawful name expression scopes
  | assign => exact checkAssign_alike lawful alike expression covers scopes
  | block => exact block_alike lawful sound alike covers scopes
  | branch => exact checkBranch_alike lawful sound alike _ expression covers scopes
  | loop condition body =>
      refine .bind lawful (checkCondition_alike lawful alike
        (covers condition (by simp [Form.parts])) scopes) fun later _ _ => ?_
      exact alike body (covers body (by simp [Form.parts])) (lawful.scopes_later later scopes)
  | functionDecl name signature =>
      exact checkFunctionDecl_alike lawful alike expression (covers _ (by simp [Form.parts])) scopes
  | lambda signature =>
      exact checkLambda_alike lawful sound alike signature expression
        (covers signature.body (by simp [Form.parts])) scopes
  | typeOf inner =>
      refine .bind lawful (alike inner (covers inner (by simp [Form.parts])) scopes)
        fun _ _ _ => ?_
      exact .pure lawful (lawful.primitive (by decide))
  | call => exact checkCall_alike lawful sound alike _ expression covers scopes

theorem checkExpr_alike (lawful : pair.Lawful) (sound : SoundVisit visit visit)
    (alike : AlikeVisit pair visit) : AlikeVisit pair (checkExpr visit) := by
  intro world expression scope otherScope covers scopes
  have classified : pair.Alike world (settle (Form.classify expression))
      (settle (Form.classify expression))
      fun _ form other => form = other ∧ Form.classify expression = .ok form :=
    .settle lawful _ fun form read => ⟨rfl, read⟩
  refine .bind lawful classified fun {one form _} first _ found => ?_
  obtain ⟨rfl, read⟩ := found
  refine .bind lawful (.changes (lawful.emit one _)) fun {two _ _} second _ _ => ?_
  exact checkForm_alike lawful sound alike form expression
    (fun name declared => covers name (.here read declared))
    (fun _ among => covers_part covers read among)
    (lawful.scopes_later (lawful.trans first second) scopes)

/-- **Checking is alike under a lawful correspondence.** By induction on the depth, the
step being that the rules are alike. -/
theorem typeOf_alike (lawful : pair.Lawful) (depth : Nat) : AlikeVisit pair (typeOf depth) := by
  induction depth with
  | zero =>
      intro world expression scope otherScope _ _
      exact .exhausted rfl rfl
  | succ depth ih => exact checkExpr_alike lawful (typeOf_sound depth) ih

end Checker

end TypedLisp
