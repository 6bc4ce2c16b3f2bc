import TypedLisp.Proofs.Budget

/-!
# Termination of checking

A step that starts within a budget ends (`CheckM.Ends`), and when it succeeds, what
follows starts within the rest of the budget. Every rule has this property when the
checking of smaller expressions does, and the depth that checking needs is bounded
by the budget: a part of an expression is lighter than the expression, and the body
of a generic function is checked within a smaller total. The bound that a session
sets itself is large enough (`Session.typeOf_isSome`).
-/

set_option autoImplicit false

namespace TypedLisp

namespace CheckM

variable {α β : Type} {limits : Limits} {session reached : Session} {view larger : View}
  {middle rest total : Nat} {step : CheckM α} {good : α → Session → View → Prop}

/-- A step has an outcome. When it succeeds, the rest of the budget is left, nothing
that was seen is lost, and the value is good. -/
def Ends (limits : Limits) (session : Session) (view : View) (step : CheckM α) (rest total : Nat)
    (good : α → Session → View → Prop) : Prop :=
  ∃ outcome reached, step.runOn session = some (outcome, reached) ∧
    ∀ value, outcome = .ok value → ∃ larger, view.Within larger ∧
      Ready limits reached larger rest total ∧ Proceeds limits session reached ∧
        good value reached larger

namespace Ends

theorem pure {value : α} (ready : Ready limits session view rest total)
    (holds : good value session view) :
    Ends limits session view (Pure.pure value) rest total good := by
  refine ⟨_, _, runOn_pure value session, fun found same => ?_⟩
  obtain rfl := Except.ok.inj same
  exact ⟨view, .refl _, ready, .refl _ _, holds⟩

theorem throw {error : Error} :
    Ends limits session view (MonadExcept.throw error) rest total good :=
  ⟨_, _, runOn_throw error session, fun _ same => by cases same⟩

theorem bind {next : α → CheckM β} {final : β → Session → View → Prop}
    (first : Ends limits session view step middle total good)
    (after : ∀ {value reached larger}, view.Within larger →
      Ready limits reached larger middle total → Proceeds limits session reached →
        good value reached larger → Ends limits reached larger (next value) rest total final) :
    Ends limits session view (step >>= next) rest total final := by
  obtain ⟨outcome, reached, run, ok⟩ := first
  have unfolded := runOn_bind step next session
  rw [run, Option.bind_some] at unfolded
  cases outcome with
  | error error => exact ⟨_, _, unfolded, fun _ same => by cases same⟩
  | ok value =>
      obtain ⟨larger, within, ready, proceeds, holds⟩ := ok value rfl
      obtain ⟨outcome, last, ran, okLast⟩ := after within ready proceeds holds
      refine ⟨outcome, last, unfolded.trans ran, fun value same => ?_⟩
      obtain ⟨final, further, readyLast, proceedsLast, holdsLast⟩ := okLast value same
      exact ⟨final, within.trans further, readyLast, proceeds.trans proceedsLast, holdsLast⟩

theorem mono {better : α → Session → View → Prop}
    (ends : Ends limits session view step rest total better)
    (weaker : ∀ {value reached larger}, better value reached larger → good value reached larger) :
    Ends limits session view step rest total good := by
  obtain ⟨outcome, reached, run, ok⟩ := ends
  refine ⟨outcome, reached, run, fun value same => ?_⟩
  obtain ⟨larger, within, ready, proceeds, holds⟩ := ok value same
  exact ⟨larger, within, ready, proceeds, weaker holds⟩

theorem get {next : Session → CheckM α}
    (ends : Ends limits session view (next session) rest total good) :
    Ends limits session view (MonadState.get >>= next) rest total good := by
  obtain ⟨outcome, reached, run, ok⟩ := ends
  exact ⟨outcome, reached, by
    simpa only [runOn_bind, runOn_get, Option.bind_some] using run, ok⟩

theorem settle {outcome : Except Error α} (ready : Ready limits session view rest total)
    (holds : ∀ value, outcome = .ok value → good value session view) :
    Ends limits session view (CheckM.settle outcome) rest total good :=
  ⟨_, _, runOn_settle outcome session, fun value same =>
    ⟨view, .refl _, ready, .refl _ _, holds value same⟩⟩

theorem ask {expression : Expr} {question : Session → Except Fault α}
    (ready : Ready limits session view rest total)
    (holds : ∀ value, question session = .ok value → good value session view) :
    Ends limits session view (CheckM.ask expression question) rest total good := by
  refine ⟨_, _, runOn_ask expression question session, fun value same => ?_⟩
  refine ⟨view, .refl _, ready, .refl _ _, holds value ?_⟩
  cases answer : question session with
  | ok found => exact congrArg _ (Except.ok.inj (answer ▸ same))
  | error fault =>
      rw [answer] at same
      cases same

/-- A step that changes no names and makes no class and no generic function leaves the
view as it is. -/
theorem still {outcome : Except Error α} {good : α → Session → Prop}
    (ready : Ready limits session view rest total) (sound : Sound session session ∅ step step good)
    (run : step.runOn session = some (outcome, reached))
    (captureless : Registry.Captureless session.types reached.types) :
    Ends limits session view step rest total fun value reached _ => good value reached := by
  refine ⟨outcome, reached, run, fun value same => ?_⟩
  obtain ⟨evolves, holds⟩ := sound.ok (same ▸ run)
  refine ⟨view, .refl _, ?_, .of_captureless evolves.types captureless, holds⟩
  exact ready.of_evolves evolves (fun found => ready.closed.classes (captureless found rfl))
    fun _ inside => by cases inside

theorem emit {event : Event} (ready : Ready limits session view rest total) :
    Ends limits session view (CheckM.emit event) rest total fun _ _ _ => True :=
  still ready (.emit ready.wellFormed) (runOn_modify _ session) fun found _ => found

theorem undoing {undo : Session → Session}
    (ends : Ends limits session view step rest total good) :
    Ends limits session view (CheckM.undoing step undo) rest total good := by
  obtain ⟨outcome, reached, run, ok⟩ := ends
  have unfolded := runOn_undoing step undo session
  rw [run, Option.map_some] at unfolded
  cases outcome with
  | error error => exact ⟨_, _, unfolded, fun _ same => by cases same⟩
  | ok value => exact ⟨_, _, unfolded, ok⟩

theorem inChild {parent : ScopeId} {inner : ScopeId → CheckM α} {known : α → Session → Prop}
    (ready : Ready limits session view middle total) (seen : parent ∈ view.scopes)
    (sound : Sound (session.opened parent) (session.opened parent) {session.next parent}
      (inner (session.next parent)) (inner (session.next parent)) known)
    (ends : Ends limits (session.opened parent) (view.withScope (session.next parent))
      (inner (session.next parent)) rest total good)
    (stable : ∀ {value reached larger}, good value reached larger →
      good value (reached.closed (session.next parent))
        (larger.restricted (reached.closed (session.next parent)))) :
    Ends limits session view (CheckM.inChild parent inner) rest total good := by
  obtain ⟨outcome, reached, run, ok⟩ := ends
  have evolves := (sound.evolves run).closed ready.wellFormed (ready.closed.live seen)
  refine ⟨outcome, reached.closed (session.next parent), ?_, fun value same => ?_⟩
  · refine (runOn_inChild parent inner session).trans ?_
    change ((inner (session.next parent)).runOn (session.opened parent)).map _ = _
    rw [run]
    rfl
  · obtain ⟨larger, within, readyInner, proceeds, holds⟩ := ok value same
    refine ⟨larger.restricted _, ⟨within.templates, ?_⟩,
      readyInner.closed_of_release evolves.wellFormed, ⟨proceeds.grows, proceeds.fresh⟩,
      stable holds⟩
    exact fun id among => ⟨within.scopes (Set.mem_insert_of_mem _ among),
      evolves.isLive (ready.closed.live among)⟩

/-- The steps of a list take their shares of the budget one after the other. -/
theorem mapM {step : α → CheckM β} {good : β → Session → View → Prop} {items : List α}
    (share : α → Nat)
    (stable : ∀ {value before after small large}, View.Within small large →
      Registry.Grows before.types after.types → good value before small → good value after large)
    (each : ∀ item ∈ items, ∀ {reached larger rest}, view.Within larger →
      Ready limits reached larger (share item + rest) total →
        Ends limits reached larger (step item) rest total good)
    (within : view.Within larger)
    (ready : Ready limits session larger ((items.map share).sum + rest) total) :
    Ends limits session larger (items.mapM step) rest total
      fun values reached larger => ∀ value ∈ values, good value reached larger := by
  induction items generalizing session larger with
  | nil => exact .pure (ready.spend (by simp)) (by simp)
  | cons item items ih =>
      simp only [List.mapM_cons]
      have shares : ((item :: items).map share).sum + rest =
          share item + ((items.map share).sum + rest) := by simp [Nat.add_assoc]
      refine (each item List.mem_cons_self within (shares ▸ ready)).bind
        fun {value reached next} more readyNext _ holds => ?_
      refine (ih (fun other among => each other (List.mem_cons_of_mem _ among))
        (within.trans more) readyNext).bind fun {values last final} further readyLast proceeds all => ?_
      refine .pure readyLast fun other among => ?_
      rcases List.mem_cons.1 among with rfl | among
      · exact stable further proceeds.grows holds
      · exact all other among

end Ends

end CheckM

/-! ## Names -/

theorem Scopes.getLocal?_define {scopes : Scopes} {scope : ScopeId} {name other : String}
    {type found : TypeId}
    (bound : (scopes.define scope name type).getLocal? scope other = some found) :
    found = type ∨ scopes.getLocal? scope other = some found := by
  obtain ⟨content, there, listed⟩ := Option.bind_eq_some_iff.1 bound
  rw [Scopes.define, Scopes.get?_updateRecord] at there
  obtain ⟨old, before, rfl⟩ := Option.map_eq_some_iff.1 there
  rw [Scopes.recordChanged, if_pos rfl] at listed
  change (old.record.insert name type).get? other = some found at listed
  rw [NameTable.get?_insert] at listed
  split at listed
  · exact .inl (Option.some.inj listed).symm
  · exact .inr (Option.bind_eq_some_iff.2 ⟨old, before, listed⟩)

section Rules

variable {limits : Limits} {session : Session} {view : View} {scope : ScopeId}
  {rest total depth : Nat}

theorem Ready.define {type : TypeId} (ready : Ready limits session view rest total)
    (scope : ScopeId) (name : String) (holds : view.Holds session type) :
    Ready limits { session with scopes := session.scopes.define scope name type } view rest
      total := by
  have evolves := ready.wellFormed.evolves_define scope name holds.has
  refine ready.of_evolves evolves ready.closed.classes fun {id other found} seen inside bound => ?_
  obtain rfl : id = scope := inside
  rcases Scopes.getLocal?_define bound with rfl | bound
  · exact ⟨holds.has, holds.seen⟩
  · exact (ready.closed.bound seen bound).mono (.refl _) evolves.types

theorem Ready.bindAll (scope : ScopeId) (parameters : List (String × TypeId))
    (ready : Ready limits session view rest total)
    (plain : ∀ parameter ∈ parameters, session.types.IsPlain parameter.2) :
    Ready limits { session with
      scopes := parameters.foldl (fun scopes (name, type) => scopes.define scope name type)
        session.scopes } view rest total := by
  induction parameters generalizing session with
  | nil => exact ready
  | cons parameter parameters ih =>
      have first := ready.define scope parameter.1
        (View.holds_of_isPlain (plain parameter List.mem_cons_self))
      exact ih first fun other among => plain other (List.mem_cons_of_mem _ among)

theorem CheckM.Ends.modifyScopes {change : Scopes → Scopes}
    (ready : Ready limits { session with scopes := change session.scopes } view rest total) :
    Ends limits session view (CheckM.modifyScopes change) rest total fun _ _ _ => True :=
  ⟨_, _, runOn_modify _ session, fun _ _ =>
    ⟨view, .refl _, ready, ⟨.refl _, .inl fun found => found⟩, trivial⟩⟩

namespace Checker

open CheckM

/-- An expression is admitted, and there is depth enough for it within a total. -/
structure Allows (limits : Limits) (depth total : Nat) (expression : Expr) : Prop
    extends limits.Admits expression where
  deep : total * limits.factor + expression.weight ≤ depth

/-- Smaller expressions are checked soundly, and their checking ends within any
budget that allows for them. -/
structure Terminating (limits : Limits) (depth : Nat) (visit : Expr → ScopeId → CheckM TypeId) :
    Prop where
  sound : SoundVisit visit visit
  ends : ∀ {session : Session} {view : View} {expression : Expr} {scope : ScopeId}
    {rest total : Nat}, Allows limits depth total expression → scope ∈ view.scopes →
      Ready limits session view (expression.weight + rest) total →
        Ends limits session view (visit expression scope) rest total
          fun id reached larger => larger.Holds reached id

variable {visit : Expr → ScopeId → CheckM TypeId}

theorem Allows.of_lighter {expression part : Expr} (allows : Allows limits depth total expression)
    (lighter : part.weight ≤ expression.weight)
    (classes : ∀ name ∈ part.declaredNames, name ∈ expression.declaredNames) :
    Allows limits depth total part where
  light := Nat.lt_of_le_of_lt lighter allows.light
  classes name listed := allows.classes name (classes name listed)
  deep := Nat.le_trans (Nat.add_le_add_left lighter _) allows.deep

/-! ## Sequences and bodies -/

theorem sequence_ends (terminating : Terminating limits depth visit) {items : List Expr}
    (allows : ∀ item ∈ items, Allows limits depth total item) (seen : scope ∈ view.scopes)
    (ready : Ready limits session view (Expr.itemsWeight items + rest) total) :
    Ends limits session view (sequence visit items scope) rest total
      fun id reached larger => larger.Holds reached id := by
  induction items generalizing session view with
  | nil => exact .throw
  | cons item items ih =>
      have first := allows item List.mem_cons_self
      rw [Expr.itemsWeight, Nat.add_assoc] at ready
      cases items with
      | nil => exact terminating.ends first seen (ready.spend (by simp [Expr.itemsWeight]))
      | cons next items =>
          refine (terminating.ends first seen ready).bind fun within readyNext _ _ => ?_
          exact ih (fun other among => allows other (List.mem_cons_of_mem _ among))
            (within.scopes seen) readyNext

theorem checkBody_ends (terminating : Terminating limits depth visit) {body : Expr}
    (allows : Allows limits depth total body) (seen : scope ∈ view.scopes)
    (ready : Ready limits session view (body.weight + rest) total) :
    Ends limits session view (checkBody visit body scope) rest total
      fun id reached larger => larger.Holds reached id := by
  unfold checkBody
  split
  · rename_i item items
    have lighter : Expr.itemsWeight (item :: items) ≤
        (Expr.list (.symbol "begin" :: item :: items)).weight := by
      simp only [Expr.weight, Expr.itemsWeight]
      omega
    refine sequence_ends terminating (fun part among => ?_) seen
      (ready.spend (Nat.add_le_add_right lighter rest))
    exact allows.of_lighter (Nat.le_trans (Expr.weight_le_itemsWeight among) lighter)
      fun name listed => Expr.mem_declaredNames_of_mem (List.mem_cons_of_mem _ among) listed
  · exact terminating.ends allows seen ready

/-! ## Functions -/

theorem resolve_ends (expression : Expr) (text : String)
    (ready : Ready limits session view rest total) :
    Ends limits session view (registering expression (Registry.resolve text)) rest total
      fun id reached _ => reached.types.IsPlain id := by
  obtain ⟨_, interns, _⟩ := Registry.resolve_resolves text ready.wellFormed.types rfl
  exact .still ready (resolve_sound expression text ready.wellFormed)
    (runOn_registering expression _ session) interns.captureless

theorem parameterTypes_ends (parameters : List (String × String)) (expression : Expr)
    (ready : Ready limits session view rest total) :
    Ends limits session view (parameterTypes parameters expression) rest total
      fun typed reached _ => ∀ parameter ∈ typed, reached.types.IsPlain parameter.2 := by
  refine .mapM (fun _ => 0) (fun _ grows plain => plain.of_types grows.types) ?_ (.refl view)
    (ready.spend (by simp))
  intro parameter _ reached larger rest _ ready
  refine (resolve_ends expression parameter.2 (ready.spend (by simp))).bind
    fun _ readyNext _ plain => .pure readyNext plain

theorem function_ends (parameters : List TypeId) (result : TypeId)
    (ready : Ready limits session view rest total)
    (plain : ∀ id ∈ result :: parameters, session.types.IsPlain id) :
    Ends limits session view (making (·.function parameters result)) rest total
      fun id reached _ => reached.types.IsPlain id := by
  obtain ⟨_, interns, _⟩ := ready.wellFormed.types.function plain
  exact .still ready (function_sound parameters result ready.wellFormed plain)
    (runOn_modifyGet _ session) interns.captureless

theorem expect_ends (expression : Expr) (given expected : TypeId)
    (ready : Ready limits session view rest total) :
    Ends limits session view
      (ask expression fun session => session.types.expect given expected) rest total
      fun _ _ _ => True :=
  .ask ready fun _ _ => trivial

theorem boundBody_ends (terminating : Terminating limits depth visit)
    (parameters : List (String × TypeId)) {body : Expr} (allows : Allows limits depth total body)
    (ready : Ready limits session view (body.weight + rest) total) (seen : scope ∈ view.scopes)
    (plain : ∀ parameter ∈ parameters, session.types.IsPlain parameter.2) :
    Ends limits session view
      (do modifyScopes fun scopes =>
            parameters.foldl (fun scopes (name, type) => scopes.define scope name type) scopes
          checkBody visit body scope) rest total fun _ _ _ => True :=
  (Ends.modifyScopes (ready.bindAll scope parameters plain)).bind fun within readyBody _ _ =>
    (checkBody_ends terminating allows (within.scopes seen) readyBody).mono fun _ => trivial

theorem checkFunction_ends (terminating : Terminating limits depth visit)
    {parameters : List (String × TypeId)} {result : TypeId} {body : Expr} (expression : Expr)
    (allows : Allows limits depth total body) (seen : scope ∈ view.scopes)
    (plain : ∀ parameter ∈ parameters, session.types.IsPlain parameter.2)
    (plainResult : session.types.IsPlain result)
    (ready : Ready limits session view (body.weight + rest) total) :
    Ends limits session view (checkFunction visit parameters result body scope expression) rest
      total fun id reached _ => reached.types.IsPlain id := by
  have sound := boundBody_sound terminating.sound parameters body (ready.opened seen).wellFormed
    (ready.wellFormed.isLive_next scope) plain
  have ends := boundBody_ends terminating parameters allows (ready.opened seen)
    (view.mem_withScope _) plain
  unfold checkFunction
  refine (Ends.inChild ready seen sound ends (by exact fun _ => trivial)).bind
    fun {actual middle larger} _ readyMiddle proceeds _ => ?_
  refine (expect_ends expression actual result readyMiddle).bind
    fun _ readyLast further _ => ?_
  have grows := proceeds.grows.trans further.grows
  refine function_ends _ result readyLast fun id among => ?_
  rcases List.mem_cons.1 among with rfl | among
  · exact plainResult.of_types grows.types
  · obtain ⟨parameter, listed, rfl⟩ := List.mem_map.1 among
    exact (plain parameter listed).of_types grows.types

theorem signatureType_ends (signature : Signature) (expression : Expr)
    (ready : Ready limits session view rest total) :
    Ends limits session view (signatureType signature expression) rest total
      fun id reached _ => reached.types.IsPlain id := by
  refine (parameterTypes_ends signature.parameters expression ready).bind
    fun _ readyMiddle _ plain => ?_
  refine (resolve_ends expression signature.result readyMiddle).bind
    fun _ readyLast further plainResult => ?_
  refine function_ends _ _ readyLast fun id among => ?_
  rcases List.mem_cons.1 among with rfl | among
  · exact plainResult
  · obtain ⟨parameter, listed, rfl⟩ := List.mem_map.1 among
    exact (plain parameter listed).of_types further.grows.types

theorem keepTemplate_ends {signature : Signature} (admitted : limits.Admits signature.body)
    (seen : scope ∈ view.scopes)
    (ready : Ready limits session view (signature.body.weight + 1 + rest) total) :
    Ends limits session view (keepTemplate signature scope) rest total
      fun id reached larger => larger.Holds reached id := by
  have grows : Registry.Grows session.types (session.withTemplate
      ⟨signature.generics, signature.parameters, signature.result, signature.body, scope⟩).types :=
    Registry.grows_add _ _
  refine ⟨_, _, runOn_keepTemplate signature scope session, fun id same => ?_⟩
  obtain rfl := Except.ok.inj same
  refine ⟨_, view.within_withTemplate _, ready.withTemplate seen admitted, ⟨grows, .inl ?_⟩,
    ⟨_, Session.get?_withTemplate session _⟩, fun _ _ => Finset.mem_insert_self _ _⟩
  intro id declared found
  rw [Session.withTemplate, Registry.addTemplate, Registry.get?_add] at found
  split at found
  · cases found
  · exact found

theorem checkLambda_ends (terminating : Terminating limits depth visit) {signature : Signature}
    (expression : Expr) (allows : Allows limits depth total signature.body)
    (seen : scope ∈ view.scopes)
    (ready : Ready limits session view (signature.body.weight + 1 + rest) total) :
    Ends limits session view (checkLambda visit signature scope expression) rest total
      fun id reached larger => larger.Holds reached id := by
  unfold checkLambda
  split
  · exact keepTemplate_ends allows.toAdmits seen ready
  · have enough := ready.spend (show signature.body.weight + rest ≤ _ by omega)
    refine (parameterTypes_ends signature.parameters expression enough).bind
      fun first readyMiddle _ plain => ?_
    refine (resolve_ends expression signature.result readyMiddle).bind
      fun second readyLast further plainResult => ?_
    refine (checkFunction_ends terminating expression allows
      (second.scopes (first.scopes seen)) ?_ plainResult readyLast).mono View.holds_of_isPlain
    exact fun parameter listed => (plain parameter listed).of_types further.grows.types

/-- **The body of a generic function** is checked within a smaller total, and after it
there is as much left as before. -/
theorem guarded_ends {generic : TypeId} {step : CheckM TypeId}
    {known : TypeId → Session → Prop} (ready : Ready limits session view rest total)
    (seen : generic ∈ view.templates) (inactive : generic ∉ session.active)
    (sound : Sound (session.entered generic) (session.entered generic) ∅ step step known)
    (ends : Ends limits (session.entered generic) view step 0 (innerTotal limits session view)
      fun id reached _ => reached.types.IsPlain id) :
    Ends limits session view
      (do modify fun session => { session with active := generic :: session.active }
          let outcome ← attempt step
          modify fun session => { session with active := session.active.erase generic }
          settle outcome) rest total fun id reached _ => reached.types.IsPlain id := by
  obtain ⟨outcome, reached, run, ok⟩ := ends
  refine ⟨outcome, reached.left generic, ?_, fun value same => ?_⟩
  · rw [runOn_guarded, run]
    rfl
  · obtain ⟨larger, within, inner, proceeds, plain⟩ := ok value same
    obtain ⟨final, further, last⟩ := ready.left seen inactive (sound.evolves run) within inner
      proceeds
    exact ⟨final, further, last, ⟨proceeds.grows, proceeds.fresh⟩, plain⟩

theorem instantiate_ends (terminating : Terminating limits depth visit) {generic : TypeId}
    (typeArguments : List String) (callee expression : Expr)
    (deep : total * limits.factor ≤ depth) (holds : view.Holds session generic)
    (ready : Ready limits session view rest total) :
    Ends limits session view (instantiate visit generic typeArguments callee expression) rest total
      fun id reached _ => reached.types.IsPlain id := by
  refine .get ?_
  split
  · exact .ask ready fun _ answer => by cases answer
  · rename_i template found
    have there := Registry.get?_of_template? found
    split
    · refine (parameterTypes_ends _ expression ready).bind
        fun {typed _ _} first readyFirst grown plain => ?_
      refine (resolve_ends expression _ readyFirst).bind
        fun second readySecond further plainResult => ?_
      refine (Ends.emit readySecond).bind fun {_ announced larger} third readyThird emitted _ => ?_
      refine .get ?_
      split
      · exact .throw
      · rename_i inactive
        have grows := (grown.trans (further.trans emitted)).grows
        have within := first.trans (second.trans third)
        have seen := within.templates (holds.seen template there)
        have inactive : generic ∉ announced.active := by simpa using inactive
        obtain ⟨kept, foundKept, seenScope, admitted⟩ := readyThird.closed.templates seen
        obtain rfl := Ty.generic.inj (Option.some.inj ((grows.types there).symm.trans foundKept))
        have cost := cost_le_spendable seen inactive foundKept
        have smaller := innerTotal_lt readyThird (by omega)
        have plainParameters : ∀ parameter ∈ typed, announced.types.IsPlain parameter.2 :=
          fun parameter listed => (plain parameter listed).of_types
            (further.trans emitted).grows.types
        have plainLast := plainResult.of_types emitted.grows.types
        have deeper : innerTotal limits announced larger * limits.factor + template.body.weight ≤
            depth := by
          have step := Nat.mul_le_mul_right limits.factor (Nat.succ_le_of_lt smaller)
          have light := admitted.light
          rw [Nat.succ_mul] at step
          omega
        have entered := readyThird.wellFormed.entered generic
        refine guarded_ends readyThird seen inactive
          (checkFunction_sound terminating.sound _ _ _ expression entered
            (readyThird.closed.live seenScope) (entered.isLive_next template.scope)
            plainParameters plainLast) ?_
        exact checkFunction_ends terminating expression ⟨admitted, deeper⟩ seenScope
          plainParameters plainLast (readyThird.entered seen inactive foundKept)
    · exact .throw

/-! ## Declarations -/

theorem checkTypeDecl_ends (name : String) (base : TypeBase) (expression : Expr)
    (ready : Ready limits session view rest total) :
    Ends limits session view (checkTypeDecl name base expression) rest total
      fun id reached _ => reached.types.IsPlain id := by
  have registered : Ends limits session view (registering expression (register name base)) rest
      total fun id reached _ => reached.types.IsPlain id := by
    have wellFormed := ready.wellFormed
    cases base with
    | «alias» parent =>
        obtain ⟨declares, plain⟩ := Registry.declareAlias_declares name parent wellFormed.types rfl
        exact .still ready (declares_sound expression wellFormed declares plain)
          (runOn_registering expression _ session) declares.captureless
    | union members =>
        obtain ⟨declares, plain⟩ := Registry.declareUnion_declares name members wellFormed.types rfl
        exact .still ready (declares_sound expression wellFormed declares plain)
          (runOn_registering expression _ session) declares.captureless
  rw [checkTypeDecl_eq]
  refine registered.bind fun _ readyMiddle _ plain => ?_
  refine (Ends.emit readyMiddle).bind fun _ readyLast emitted _ => ?_
  exact .pure readyLast (plain.of_types emitted.grows.types)

theorem superclass_ends (superclass : Option String) (expression : Expr)
    (ready : Ready limits session view rest total) :
    Ends limits session view
      (superclass.mapM fun parent => ask expression (·.classNamed parent)) rest total
      fun superclass reached _ => ∀ id ∈ superclass, reached.types.IsPlain id := by
  cases superclass with
  | none => exact .pure ready (by simp)
  | some parent =>
      simp only [Option.mapM_some, map_eq_pure_bind]
      have named : Ends limits session view (ask expression (·.classNamed parent)) rest total
          fun id reached _ => reached.types.IsPlain id :=
        .ask ready fun _ answer => ready.wellFormed.isPlain_classNamed answer
      refine named.bind fun _ readyNext _ plain => .pure readyNext ?_
      intro id same
      obtain rfl := Option.some.inj same
      exact plain

theorem openClass_ends {α : Type} {good : α → Session → View → Prop} {name : String}
    {superclass : Option TypeId} {next : ScopeId → TypeId → CheckM α} (expression : Expr)
    (listed : name ∈ limits.classes)
    (after : session.types.names.get? name = none →
      Ends limits (session.withClass name superclass scope)
        (view.withScope (session.next scope))
        (next (session.next scope) ⟨session.types.types.size⟩) rest total good) :
    Ends limits session view (openClass name superclass scope expression next) rest total good := by
  have starts := runOn_openClass name superclass scope expression next session
  by_cases taken : session.types.names.contains name = true
  · rw [if_pos taken] at starts
    exact ⟨_, _, starts, fun _ same => by cases same⟩
  · rw [if_neg taken] at starts
    have unclaimed := Registry.get?_names_of_contains taken
    obtain ⟨outcome, reached, run, ok⟩ := after unclaimed
    refine ⟨outcome, reached, starts.trans run, fun value same => ?_⟩
    obtain ⟨larger, within, ready, proceeds, holds⟩ := ok value same
    exact ⟨larger, (view.within_withScope _).trans within, ready,
      (proceeds_withClass listed unclaimed).trans proceeds, holds⟩

theorem checkClassDecl_ends (terminating : Terminating limits depth visit) {name : String}
    (superclass : Option String) {body : Expr} (expression : Expr)
    (listed : name ∈ limits.classes) (allows : Allows limits depth total body)
    (seen : scope ∈ view.scopes) (ready : Ready limits session view (body.weight + rest) total) :
    Ends limits session view (checkClassDecl visit name superclass body scope expression) rest total
      fun id reached larger => larger.Holds reached id := by
  rw [checkClassDecl_eq]
  refine (superclass_ends superclass expression ready).bind
    fun {superclass start view} within ready _ plain => ?_
  refine openClass_ends expression listed fun unclaimed => ?_
  unfold bindClass
  have plainClass : (start.withClass name superclass scope).types.IsPlain
      ⟨start.types.types.size⟩ :=
    ⟨_, Session.get?_withClass start name superclass scope, by simp [Ty.IsNongeneric]⟩
  have opened := ready.withClass (within.scopes seen) plain unclaimed
  have defined := opened.define scope name (View.holds_of_isPlain plainClass)
  refine .get ((Ends.modifyScopes defined).bind fun first readyFirst defines _ => ?_)
  refine (Ends.emit readyFirst).bind fun second readySecond emits _ => ?_
  have inner := second.scopes (first.scopes (view.mem_withScope (start.next scope)))
  refine ((checkBody_ends terminating allows inner readySecond).undoing).bind
    fun third readyThird checks _ => .pure readyThird (View.holds_of_isPlain ?_)
  exact plainClass.of_types (defines.trans (emits.trans checks)).grows.types

theorem variableType_ends (typeText : Option String) {actual : TypeId} (expression : Expr)
    (holds : view.Holds session actual) (ready : Ready limits session view rest total) :
    Ends limits session view (variableType typeText actual expression) rest total
      fun id reached larger => larger.Holds reached id := by
  cases typeText with
  | none => exact .pure ready holds
  | some typeText =>
      refine (resolve_ends expression typeText ready).bind
        fun {declared _ _} _ readyMiddle _ plain => ?_
      refine (expect_ends expression actual declared readyMiddle).bind
        fun _ readyLast further _ => .pure readyLast ?_
      exact View.holds_of_isPlain (plain.of_types further.grows.types)

theorem checkVariable_ends (terminating : Terminating limits depth visit) (target : Binding)
    {value : Expr} (expression : Expr) (allows : Allows limits depth total value)
    (seen : scope ∈ view.scopes) (ready : Ready limits session view (value.weight + rest) total) :
    Ends limits session view (checkVariable visit target value scope expression) rest total
      fun id reached larger => larger.Holds reached id := by
  refine (terminating.ends allows seen ready).bind fun _ readyFirst _ holds => ?_
  refine (variableType_ends target.typeText expression holds readyFirst).bind
    fun _ readySecond _ holdsType => ?_
  refine (Ends.modifyScopes (readySecond.define scope target.name holdsType)).bind
    fun within readyLast defines _ => ?_
  exact .pure readyLast (holdsType.mono within defines.grows)

theorem announce_ends (name : String) (signature : Signature) (expression : Expr)
    (ready : Ready limits session view rest total) :
    Ends limits session view (announce name signature scope expression) rest total
      fun _ _ _ => True := by
  unfold announce
  split
  · exact .pure ready trivial
  · exact (signatureType_ends signature expression ready).bind fun _ readyNext _ plain =>
      .modifyScopes (readyNext.define scope name (View.holds_of_isPlain plain))

theorem checkFunctionDecl_ends (terminating : Terminating limits depth visit) {name : String}
    {signature : Signature} (expression : Expr)
    (allows : Allows limits depth total (.list [.symbol "var", .symbol name, signature.toLambda]))
    (seen : scope ∈ view.scopes)
    (ready : Ready limits session view
      ((Expr.list [.symbol "var", .symbol name, signature.toLambda]).weight + rest) total) :
    Ends limits session view (checkFunctionDecl visit name signature scope expression) rest total
      fun id reached larger => larger.Holds reached id :=
  .get ((announce_ends name signature expression ready).bind fun within readyNext _ _ =>
    (terminating.ends allows (within.scopes seen) readyNext).undoing)

/-! ## Operations -/

theorem operand_ends (expression : Expr) (given : TypeId) (allowed : List TypeId)
    (ready : Ready limits session view rest total) :
    Ends limits session view
      (ask expression fun session => session.types.expectOperand given allowed) rest total
      fun _ _ _ => True :=
  .ask ready fun _ _ => trivial

theorem field_ends (object : TypeId) (name : String) (expression : Expr)
    (ready : Ready limits session view rest total) :
    Ends limits session view (ask expression (·.field object name)) rest total
      fun id reached larger => larger.Holds reached id :=
  .ask ready fun _ answer => ready.holds_field answer

theorem callResult_ends (callee : TypeId) (arguments : List TypeId) (construct : String)
    (expression : Expr) (ready : Ready limits session view rest total) :
    Ends limits session view
      (ask expression fun session => session.types.callResult callee arguments construct) rest total
      fun id reached larger => larger.Holds reached id :=
  .ask ready fun _ answer => View.holds_of_isPlain (ready.wellFormed.isPlain_callResult answer)

theorem checkArithmetic_ends (terminating : Terminating limits depth visit)
    (operator : Arithmetic) {left right : Expr} (expression : Expr)
    (allowsLeft : Allows limits depth total left) (allowsRight : Allows limits depth total right)
    (seen : scope ∈ view.scopes)
    (ready : Ready limits session view (left.weight + (right.weight + rest)) total) :
    Ends limits session view (checkArithmetic visit operator left right scope expression) rest total
      fun id reached larger => larger.Holds reached id := by
  refine (terminating.ends allowsLeft seen ready).bind
    fun {leftType _ _} first readyFirst _ _ => ?_
  refine (terminating.ends allowsRight (first.scopes seen) readyFirst).bind
    fun {rightType _ _} _ readySecond _ holds => ?_
  refine (operand_ends expression leftType _ readySecond).bind fun third readyThird grown _ => ?_
  refine (operand_ends expression rightType _ readyThird).bind fun fourth readyFourth more _ => ?_
  refine (expect_ends expression rightType leftType readyFourth).bind
    fun fifth readyLast last _ => .pure readyLast ?_
  exact holds.mono (third.trans (fourth.trans fifth)) (grown.trans (more.trans last)).grows

theorem checkComparison_ends (terminating : Terminating limits depth visit)
    {left right : Expr} (expression : Expr) (allowsLeft : Allows limits depth total left)
    (allowsRight : Allows limits depth total right) (seen : scope ∈ view.scopes)
    (ready : Ready limits session view (left.weight + (right.weight + rest)) total) :
    Ends limits session view (checkComparison visit left right scope expression) rest total
      fun id reached larger => larger.Holds reached id := by
  refine (terminating.ends allowsLeft seen ready).bind
    fun {leftType _ _} first readyFirst _ _ => ?_
  refine (terminating.ends allowsRight (first.scopes seen) readyFirst).bind
    fun {rightType _ _} _ readySecond _ _ => ?_
  refine (expect_ends expression rightType leftType readySecond).bind
    fun _ readyLast _ _ => .pure readyLast ?_
  exact View.holds_of_isPlain (readyLast.wellFormed.isPlain_primitive rfl)

theorem arguments_ends (terminating : Terminating limits depth visit) {arguments : List Expr}
    (allows : ∀ argument ∈ arguments, Allows limits depth total argument)
    (seen : scope ∈ view.scopes)
    (ready : Ready limits session view (Expr.itemsWeight arguments + rest) total) :
    Ends limits session view (arguments.mapM (visit · scope)) rest total
      fun ids reached larger => ∀ id ∈ ids, larger.Holds reached id := by
  rw [Expr.itemsWeight_eq] at ready
  refine .mapM Expr.weight (fun within grows holds => holds.mono within grows) ?_ (.refl view) ready
  intro argument among reached larger rest within ready
  exact terminating.ends (allows argument among) (within.scopes seen) ready

theorem checkConstruct_ends (terminating : Terminating limits depth visit) (className : String)
    {arguments : List Expr} (expression : Expr)
    (allows : ∀ argument ∈ arguments, Allows limits depth total argument)
    (seen : scope ∈ view.scopes)
    (ready : Ready limits session view (Expr.itemsWeight arguments + rest) total) :
    Ends limits session view (checkConstruct visit className arguments scope expression) rest total
      fun id reached larger => larger.Holds reached id := by
  have named : Ends limits session view (ask expression (·.classNamed className)) _ total
      fun id reached _ => reached.types.IsPlain id :=
    .ask ready fun _ answer => ready.wellFormed.isPlain_classNamed answer
  refine named.bind fun {object _ _} first readyFirst _ plain => ?_
  refine (arguments_ends terminating allows (first.scopes seen) readyFirst).bind
    fun {types _ _} _ readySecond grown _ => ?_
  refine (field_ends object "constructor" expression readySecond).bind
    fun {constructor _ _} _ readyThird more _ => ?_
  refine (callResult_ends constructor (object :: types) "constructor" expression readyThird).bind
    fun _ readyLast last _ => .pure readyLast ?_
  exact View.holds_of_isPlain (plain.of_types (grown.trans (more.trans last)).grows.types)

theorem checkProperty_ends (terminating : Terminating limits depth visit) {object : Expr}
    (field : String) (expression : Expr) (allows : Allows limits depth total object)
    (seen : scope ∈ view.scopes) (ready : Ready limits session view (object.weight + rest) total) :
    Ends limits session view (checkProperty visit object field scope expression) rest total
      fun id reached larger => larger.Holds reached id :=
  (terminating.ends allows seen ready).bind fun {type _ _} _ readyNext _ _ =>
    field_ends type field expression readyNext

theorem lookup_ends (name : String) (expression : Expr) (seen : scope ∈ view.scopes)
    (ready : Ready limits session view rest total) :
    Ends limits session view (ask expression fun session => session.scopes.lookup scope name) rest
      total fun id reached larger => larger.Holds reached id :=
  .ask ready fun _ answer => ready.holds_lookup seen answer

/-- The end of an assignment, after the declared type has been found. -/
theorem checkAssign_ends (terminating : Terminating limits depth visit) {target : AssignTarget}
    {value : Expr} (expression : Expr) (allows : Allows limits depth total value)
    (seen : scope ∈ view.scopes)
    (targeted : Ends limits session view (targetType visit target scope expression)
      (value.weight + rest) total fun id reached larger => larger.Holds reached id) :
    Ends limits session view (checkAssign visit target value scope expression) rest total
      fun id reached larger => larger.Holds reached id := by
  refine targeted.bind fun {declared _ _} first readyFirst _ holds => ?_
  refine (terminating.ends allows (first.scopes seen) readyFirst).bind
    fun {actual _ _} second readySecond grown _ => ?_
  refine (expect_ends expression actual declared readySecond).bind
    fun third readyLast last _ => .pure readyLast ?_
  exact holds.mono (second.trans third) (grown.trans last).grows

theorem checkCondition_ends (terminating : Terminating limits depth visit) {condition : Expr}
    (allows : Allows limits depth total condition) (seen : scope ∈ view.scopes)
    (ready : Ready limits session view (condition.weight + rest) total) :
    Ends limits session view (checkCondition visit condition scope) rest total
      fun _ _ _ => True :=
  (terminating.ends allows seen ready).bind fun {type _ _} _ readyNext _ _ =>
    expect_ends condition type .boolean readyNext

theorem checkConsequent_ends (terminating : Terminating limits depth visit)
    (narrowing : Option Narrowing) {consequent : Expr} (expression : Expr)
    (allows : Allows limits depth total consequent) (seen : scope ∈ view.scopes)
    (ready : Ready limits session view (consequent.weight + rest) total) :
    Ends limits session view (checkConsequent visit narrowing consequent scope expression) rest
      total fun id reached larger => larger.Holds reached id := by
  cases narrowing with
  | none => exact terminating.ends allows seen ready
  | some narrowing =>
      refine (resolve_ends expression narrowing.typeName ready).bind
        fun {narrowed middle view} within readyMiddle _ plain => ?_
      have seen := within.scopes seen
      have opened := readyMiddle.opened seen
      have has := Session.has_of_isPlain plain
      refine .inChild readyMiddle seen
        ((define_sound narrowing.name opened.wellFormed has).andThen fun defines _ =>
          terminating.sound consequent defines.wellFormed
            (defines.isLive (readyMiddle.wellFormed.isLive_next scope))) ?_
        fun holds => ⟨holds.has, holds.seen⟩
      refine (Ends.modifyScopes (opened.define _ narrowing.name
        (View.holds_of_isPlain plain))).bind fun further readyInner _ _ => ?_
      exact terminating.ends allows (further.scopes (view.mem_withScope _)) readyInner

theorem checkBranch_ends (terminating : Terminating limits depth visit)
    {condition consequent alternative : Expr} (narrowing : Option Narrowing) (expression : Expr)
    (allowsCondition : Allows limits depth total condition)
    (allowsConsequent : Allows limits depth total consequent)
    (allowsAlternative : Allows limits depth total alternative) (seen : scope ∈ view.scopes)
    (ready : Ready limits session view
      (condition.weight + (consequent.weight + (alternative.weight + rest))) total) :
    Ends limits session view
      (checkBranch visit condition narrowing consequent alternative scope expression) rest total
      fun id reached larger => larger.Holds reached id := by
  refine (checkCondition_ends terminating allowsCondition seen ready).bind
    fun first readyFirst _ _ => ?_
  have seen := first.scopes seen
  refine (checkConsequent_ends terminating narrowing expression allowsConsequent seen
    readyFirst).bind fun {type _ _} second readySecond _ holds => ?_
  refine (terminating.ends allowsAlternative (second.scopes seen) readySecond).bind
    fun {otherType _ _} third readyThird grown _ => ?_
  refine (expect_ends expression otherType type readyThird).bind
    fun fourth readyLast last _ => .pure readyLast ?_
  exact holds.mono (third.trans fourth) (grown.trans last).grows

theorem checkCall_ends (terminating : Terminating limits depth visit) {callee : Expr}
    (typeArguments : Option (List String)) {arguments : List Expr} (expression : Expr)
    (allows : ∀ part ∈ callee :: arguments, Allows limits depth total part)
    (seen : scope ∈ view.scopes)
    (ready : Ready limits session view
      (callee.weight + (Expr.itemsWeight arguments + rest)) total) :
    Ends limits session view (checkCall visit callee typeArguments arguments scope expression) rest
      total fun id reached larger => larger.Holds reached id := by
  have allowsCallee := allows callee List.mem_cons_self
  refine (terminating.ends allowsCallee seen ready).bind
    fun {calleeType start view} within readyFirst _ holds => ?_
  have called : Ends limits start view
      (calledType visit calleeType typeArguments callee expression)
      (Expr.itemsWeight arguments + rest) total fun id reached larger => larger.Holds reached id := by
    cases typeArguments with
    | some typeArguments =>
        exact (instantiate_ends terminating typeArguments callee expression
          (Nat.le_trans (Nat.le_add_right _ _) allowsCallee.deep) holds readyFirst).mono
          View.holds_of_isPlain
    | none =>
        refine .ask readyFirst fun id answer => ?_
        split at answer
        · cases answer
        · obtain rfl := Except.ok.inj answer
          exact holds
  refine called.bind fun second readySecond _ _ => ?_
  refine (arguments_ends terminating (fun argument among => allows argument
    (List.mem_cons_of_mem _ among)) (second.scopes (within.scopes seen)) readySecond).bind
    fun _ readyLast _ _ => ?_
  exact callResult_ends _ _ _ expression readyLast

/-! ## Forms -/

theorem block_ends (terminating : Terminating limits depth visit) {items : List Expr}
    (allows : ∀ item ∈ items, Allows limits depth total item) (seen : scope ∈ view.scopes)
    (ready : Ready limits session view (Expr.itemsWeight items + rest) total) :
    Ends limits session view (inChild scope fun inner => sequence visit items inner) rest total
      fun id reached larger => larger.Holds reached id :=
  .inChild ready seen
    (sequence_sound terminating.sound items (ready.opened seen).wellFormed
      (ready.wellFormed.isLive_next scope))
    (sequence_ends terminating allows (view.mem_withScope _) (ready.opened seen))
    fun holds => ⟨holds.has, holds.seen⟩

theorem checkForm_ends (terminating : Terminating limits depth visit) {form : Form}
    (expression : Expr) (allows : ∀ part ∈ form.parts, Allows limits depth total part)
    (declared : ∀ name ∈ form.declaredName?, name ∈ limits.classes) (seen : scope ∈ view.scopes)
    (ready : Ready limits session view (Expr.itemsWeight form.parts + 1 + rest) total) :
    Ends limits session view (checkForm visit form scope expression) rest total
      fun id reached larger => larger.Holds reached id := by
  -- In each case the budget is first written out over the parts of the form.
  cases form with
  | literal kind =>
      refine .pure (ready.spend (by omega)) ?_
      cases kind <;> exact View.holds_of_isPlain (ready.wellFormed.isPlain_primitive rfl)
  | arithmetic operator left right =>
      simp only [Form.parts, Expr.itemsWeight] at ready
      exact checkArithmetic_ends terminating operator expression (allows left (by simp [Form.parts]))
        (allows right (by simp [Form.parts])) seen (ready.spend (by omega))
  | comparison operator left right =>
      simp only [Form.parts, Expr.itemsWeight] at ready
      exact checkComparison_ends terminating expression (allows left (by simp [Form.parts]))
        (allows right (by simp [Form.parts])) seen (ready.spend (by omega))
  | typeDecl name base =>
      exact (checkTypeDecl_ends name base expression (ready.spend (by omega))).mono
        View.holds_of_isPlain
  | classDecl name superclass body =>
      simp only [Form.parts, Expr.itemsWeight] at ready
      exact checkClassDecl_ends terminating superclass expression (declared name rfl)
        (allows body (by simp [Form.parts])) seen (ready.spend (by omega))
  | construct className arguments =>
      simp only [Form.parts] at ready
      exact checkConstruct_ends terminating className expression allows seen
        (ready.spend (by omega))
  | super className =>
      exact .ask (ready.spend (by omega)) fun _ answer =>
        View.holds_of_isPlain (ready.wellFormed.isPlain_superclassOf answer)
  | property object field =>
      simp only [Form.parts, Expr.itemsWeight] at ready
      exact checkProperty_ends terminating field expression (allows object (by simp [Form.parts]))
        seen (ready.spend (by omega))
  | varDecl target value =>
      simp only [Form.parts, Expr.itemsWeight] at ready
      exact checkVariable_ends terminating target expression (allows value (by simp [Form.parts]))
        seen (ready.spend (by omega))
  | identifier name => exact lookup_ends name expression seen (ready.spend (by omega))
  | assign target value =>
      cases target with
      | name name =>
          simp only [Form.parts, Expr.itemsWeight] at ready
          exact checkAssign_ends terminating expression (allows value (by simp [Form.parts])) seen
            (lookup_ends name expression seen (ready.spend (by omega)))
      | property object field =>
          simp only [Form.parts, Expr.itemsWeight] at ready
          exact checkAssign_ends terminating expression (allows value (by simp [Form.parts])) seen
            (checkProperty_ends terminating field expression
              (allows object (by simp [Form.parts])) seen (ready.spend (by omega)))
  | block items =>
      simp only [Form.parts] at ready
      exact block_ends terminating allows seen (ready.spend (by omega))
  | branch condition narrowing consequent alternative =>
      simp only [Form.parts, Expr.itemsWeight] at ready
      exact checkBranch_ends terminating narrowing expression
        (allows condition (by simp [Form.parts])) (allows consequent (by simp [Form.parts]))
        (allows alternative (by simp [Form.parts])) seen (ready.spend (by omega))
  | loop condition body =>
      simp only [Form.parts, Expr.itemsWeight] at ready
      have enough := ready.spend (show condition.weight + (body.weight + rest) ≤ _ by omega)
      refine (checkCondition_ends terminating (allows condition (by simp [Form.parts])) seen
        enough).bind fun within readyNext _ _ => ?_
      exact terminating.ends (allows body (by simp [Form.parts])) (within.scopes seen) readyNext
  | functionDecl name signature =>
      rw [Form.parts, Expr.itemsWeight, Expr.itemsWeight] at ready
      exact checkFunctionDecl_ends terminating expression (allows _ (by simp [Form.parts])) seen
        (ready.spend (by omega))
  | lambda signature =>
      simp only [Form.parts, Expr.itemsWeight] at ready
      exact checkLambda_ends terminating expression (allows _ (by simp [Form.parts])) seen
        (ready.spend (by omega))
  | typeOf inner =>
      simp only [Form.parts, Expr.itemsWeight] at ready
      have enough := ready.spend (show inner.weight + rest ≤ _ by omega)
      refine (terminating.ends (allows inner (by simp [Form.parts])) seen enough).bind
        fun _ readyNext _ _ => .pure readyNext ?_
      exact View.holds_of_isPlain (readyNext.wellFormed.isPlain_primitive rfl)
  | call callee typeArguments arguments =>
      simp only [Form.parts, Expr.itemsWeight] at ready
      exact checkCall_ends terminating typeArguments expression allows seen
        (ready.spend (by omega))

theorem checkExpr_terminating (terminating : Terminating limits depth visit) :
    Terminating limits (depth + 1) (checkExpr visit) where
  sound := checkExpr_sound terminating.sound
  ends := by
    intro session view expression scope rest total allows seen ready
    have classified : Ends limits session view (settle (Form.classify expression))
        (expression.weight + rest) total fun form _ _ => Form.classify expression = .ok form :=
      .settle ready fun _ same => same
    refine classified.bind fun {form _ _} first readyFirst _ read => ?_
    refine (Ends.emit readyFirst).bind fun second readySecond _ _ => ?_
    have fits := Form.fits_of_classify read
    have lighter := fits.lighter
    refine checkForm_ends terminating expression (fun part among => ?_)
      (fun name same => allows.classes name (fits.declared name same))
      (second.scopes (first.scopes seen)) (readySecond.spend (by omega))
    have light := Expr.weight_le_itemsWeight among
    have deep := allows.deep
    exact ⟨⟨by have := allows.light; omega,
      fun name listed => allows.classes name (fits.inner part among name listed)⟩, by omega⟩

/-- **Checking ends within its budget.** By induction on the depth; a depth of zero
allows for no expression at all. -/
theorem typeOf_terminating (limits : Limits) (depth : Nat) :
    Terminating limits depth (typeOf depth) := by
  induction depth with
  | zero =>
      refine ⟨typeOf_sound 0, fun {_ _ expression _ _ _} allows _ _ => ?_⟩
      have deep := allows.deep
      have positive := expression.weight_pos
      omega
  | succ depth ih => exact checkExpr_terminating ih

end Checker

end Rules

end TypedLisp
