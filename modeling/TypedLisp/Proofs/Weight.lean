import Mathlib.Algebra.Ring.Nat
import TypedLisp.Form.Classify

/-!
# Weights of expressions

Checking a form checks its parts. The weight of an expression counts its atoms and
lists, and a little more for a function declaration, because that one is rebuilt as
a variable with a `lambda` for its value before it is checked. So the parts of a
form weigh less than the expression together, also where a part is no piece of it
(`Form.fits_of_classify`).

The names of types and classes that an expression declares (`Expr.Declares`) are collected
along the way: those of the parts are among those of the whole. Weights and numbers of names
are bounded by the size of the expression.
-/

set_option autoImplicit false

namespace TypedLisp

namespace Expr

/-- The name of the type or class that a list with these items declares. -/
def declaredName? : List Expr → Option String
  | .symbol "class" :: .symbol name :: _ => some name
  | .symbol "type" :: .symbol name :: _ => some name
  | _ => none

/-- What a list weighs beyond its items. -/
def ownWeight (items : List Expr) : Nat :=
  if (Expr.list items).head? = some "def" then 4 else 1

mutual

/-- The number of atoms and lists, where the declaration of a function counts four
times. -/
def weight : Expr → Nat
  | .list items => itemsWeight items + ownWeight items
  | _ => 1

/-- The weight of several expressions together. -/
def itemsWeight : List Expr → Nat
  | [] => 0
  | item :: items => weight item + itemsWeight items

end

mutual

/-- The names of the types and classes that are declared anywhere in an expression. -/
def declaredNames : Expr → List String
  | .list items => (declaredName? items).toList ++ itemsDeclaredNames items
  | _ => []

/-- The names of the types and classes that are declared anywhere in several
expressions. -/
def itemsDeclaredNames : List Expr → List String
  | [] => []
  | item :: items => declaredNames item ++ itemsDeclaredNames items

end

theorem itemsWeight_eq (items : List Expr) : itemsWeight items = (items.map weight).sum := by
  induction items with
  | nil => rfl
  | cons item items ih => simp [itemsWeight, ih]

theorem itemsDeclaredNames_eq (items : List Expr) :
    itemsDeclaredNames items = items.flatMap declaredNames := by
  induction items with
  | nil => rfl
  | cons item items ih => simp [itemsDeclaredNames, ih]

theorem ownWeight_pos (items : List Expr) : 0 < ownWeight items := by
  unfold ownWeight
  split <;> omega

theorem weight_pos (expression : Expr) : 0 < weight expression := by
  cases expression with
  | list items => exact Nat.lt_of_lt_of_le (ownWeight_pos items) (Nat.le_add_left _ _)
  | _ => exact Nat.one_pos

theorem itemsWeight_le_of_sublist {some all : List Expr} (sublist : some.Sublist all) :
    itemsWeight some ≤ itemsWeight all := by
  induction sublist with
  | slnil => exact Nat.le_refl _
  | cons item _ ih => exact Nat.le_trans ih (Nat.le_add_left _ _)
  | cons_cons item _ ih => exact Nat.add_le_add_left ih _

theorem weight_le_itemsWeight {item : Expr} {items : List Expr} (among : item ∈ items) :
    item.weight ≤ itemsWeight items :=
  itemsWeight_le_of_sublist (List.singleton_sublist.2 among)

theorem mem_declaredNames_of_mem {item : Expr} {items : List Expr} {name : String}
    (among : item ∈ items) (declared : name ∈ item.declaredNames) :
    name ∈ (Expr.list items).declaredNames := by
  rw [declaredNames, itemsDeclaredNames_eq]
  exact List.mem_append_right _ (List.mem_flatMap.2 ⟨item, among, declared⟩)

/-! ## Bounds by the size -/

mutual

theorem weight_le (expression : Expr) : weight expression ≤ 4 * size expression := by
  cases expression with
  | list items =>
      have inside := itemsWeight_le items
      have own : ownWeight items ≤ 4 := by
        unfold ownWeight
        split <;> omega
      rw [weight, size]
      omega
  | _ => simp [weight, size]

theorem itemsWeight_le (items : List Expr) : itemsWeight items ≤ 4 * itemsSize items := by
  cases items with
  | nil => exact Nat.le_refl _
  | cons item items =>
      have first := weight_le item
      have rest := itemsWeight_le items
      rw [itemsWeight, itemsSize]
      omega

end

mutual

theorem length_declaredNames_le (expression : Expr) :
    2 * (declaredNames expression).length ≤ size expression := by
  cases expression with
  | list items =>
      have inside := length_itemsDeclaredNames_le items
      rw [declaredNames, size, List.length_append]
      cases declared : declaredName? items with
      | none => simpa using Nat.le_succ_of_le inside
      | some name =>
          -- The first word and the name itself pay for the name.
          have paid : ∃ word rest, items = .symbol word :: .symbol name :: rest := by
            unfold declaredName? at declared
            split at declared
            · obtain rfl := Option.some.inj declared
              exact ⟨_, _, rfl⟩
            · obtain rfl := Option.some.inj declared
              exact ⟨_, _, rfl⟩
            · cases declared
          obtain ⟨word, rest, rfl⟩ := paid
          have after := length_itemsDeclaredNames_le rest
          simp only [itemsDeclaredNames, declaredNames, itemsSize, size, Option.toList_some,
            List.nil_append, List.length_singleton]
          omega
  | _ => simp [declaredNames, size]

theorem length_itemsDeclaredNames_le (items : List Expr) :
    2 * (itemsDeclaredNames items).length ≤ itemsSize items := by
  cases items with
  | nil => exact Nat.le_refl _
  | cons item items =>
      have first := length_declaredNames_le item
      have rest := length_itemsDeclaredNames_le items
      rw [itemsDeclaredNames, itemsSize, List.length_append]
      omega

end

end Expr

/-! ## Parts of forms -/

namespace Form

/-- The expressions that are checked in order to check a form. -/
def parts : Form → List Expr
  | .literal _ | .typeDecl _ _ | .super _ | .identifier _ => []
  | .arithmetic _ left right | .comparison _ left right => [left, right]
  | .classDecl _ _ body => [body]
  | .construct _ arguments => arguments
  | .property object _ => [object]
  | .varDecl _ value | .assign (.name _) value => [value]
  | .assign (.property object _) value => [object, value]
  | .block items => items
  | .branch condition _ consequent alternative => [condition, consequent, alternative]
  | .loop condition body => [condition, body]
  | .functionDecl name signature =>
      [.list [.symbol "var", .symbol name, signature.toLambda]]
  | .lambda signature => [signature.body]
  | .typeOf inner => [inner]
  | .call callee _ arguments => callee :: arguments

/-- The name of the type or class that a form declares. -/
def declaredName? : Form → Option String
  | .typeDecl name _ | .classDecl name _ _ => some name
  | _ => none

/-- The parts of a form weigh less than an expression, and the names that the form
and its parts declare are among those of the expression. -/
structure Fits (expression : Expr) (form : Form) : Prop where
  lighter : Expr.itemsWeight form.parts < expression.weight
  declared : ∀ name ∈ form.declaredName?, name ∈ expression.declaredNames
  inner : ∀ part ∈ form.parts, ∀ name ∈ part.declaredNames, name ∈ expression.declaredNames

variable {expression : Expr} {form : Form} {items operands : List Expr}

/-- Most forms have some of the items of the list for their parts. -/
theorem fits_of_sublist (sublist : form.parts.Sublist items)
    (declared : ∀ name ∈ form.declaredName?, name ∈ Expr.declaredName? items) :
    Fits (.list items) form where
  lighter := by
    have less := Expr.itemsWeight_le_of_sublist sublist
    have positive := Expr.ownWeight_pos items
    rw [Expr.weight]
    omega
  declared name same := by
    rw [Expr.declaredNames]
    exact List.mem_append_left _ (Option.mem_toList.2 (declared name same))
  inner part among name listed := Expr.mem_declaredNames_of_mem (sublist.subset among) listed

/-- A form that declares no type or class, with some of the operands for its parts. -/
theorem fits_of_operands {tag : Expr} (sublist : form.parts.Sublist operands)
    (undeclared : form.declaredName? = none) : Fits (.list (tag :: operands)) form :=
  fits_of_sublist (sublist.cons tag) (by simp [undeclared])

/-! ## Signatures -/

theorem ok_of_bind {α β : Type} {step : Except Error α} {next : α → Except Error β} {value : β}
    (run : (step >>= next) = .ok value) : ∃ middle, step = .ok middle ∧ next middle = .ok value := by
  cases step with
  | error error => cases run
  | ok middle => exact ⟨middle, rfl, run⟩

theorem operands_of_splitGenerics {generics : Option (List String)} {rest : List Expr}
    (split : splitGenerics operands = (generics, rest)) :
    (generics = none ∧ rest = operands) ∨ ∃ symbol names, generics = some names ∧
      TypeText.genericList? symbol = some names ∧ operands = .symbol symbol :: rest := by
  unfold splitGenerics at split
  split at split
  · split at split
    · rename_i names listed
      obtain ⟨rfl, rfl⟩ := Prod.mk.inj split
      exact .inr ⟨_, names, rfl, listed, rfl⟩
    · obtain ⟨rfl, rfl⟩ := Prod.mk.inj split
      exact .inl ⟨rfl, rfl⟩
  · obtain ⟨rfl, rfl⟩ := Prod.mk.inj split
    exact .inl ⟨rfl, rfl⟩

theorem eq_symbol_of_symbolOf {written : Expr} {name : String}
    (read : symbolOf expression written = .ok name) : written = .symbol name := by
  unfold symbolOf at read
  split at read
  · rw [Except.ok.inj read]
  · cases read

/-- A parameter is written as a list of its name and its type text. -/
def writtenParameter (parameter : String × String) : Expr :=
  .list [.symbol parameter.1, .symbol parameter.2]

theorem eq_of_parameterOf {written : Expr} {parameter : String × String}
    (read : parameterOf expression written = .ok parameter) :
    written = writtenParameter parameter := by
  obtain ⟨binding, bound, typed⟩ := ok_of_bind read
  unfold bindingOf at bound
  split at bound
  · obtain rfl := Except.ok.inj bound
    cases typed
  · obtain ⟨name, named, bound⟩ := ok_of_bind bound
    obtain ⟨text, texted, bound⟩ := ok_of_bind bound
    obtain rfl := Except.ok.inj bound
    obtain rfl := Except.ok.inj typed
    rw [eq_symbol_of_symbolOf named, eq_symbol_of_symbolOf texted, writtenParameter]
  · cases bound

/-- Where every item is what its value is written as, so is the list. -/
theorem eq_map_of_mapM {α : Type} {reader : Expr → Except Error α} {writer : α → Expr}
    (each : ∀ {written value}, reader written = .ok value → written = writer value)
    {written : List Expr} {values : List α} (read : written.mapM reader = .ok values) :
    written = values.map writer := by
  induction written generalizing values with
  | nil =>
      obtain rfl := Except.ok.inj read
      rfl
  | cons first written ih =>
      rw [List.mapM_cons] at read
      obtain ⟨value, readFirst, read⟩ := ok_of_bind read
      obtain ⟨rest, readRest, read⟩ := ok_of_bind read
      obtain rfl := Except.ok.inj read
      rw [each readFirst, ih readRest, List.map_cons]

/-- What a signature is read from: perhaps a list of generic names, and then the
parameters, an arrow, the result and the body. -/
theorem splitGenerics_of_signatureOf {tag : String} {signature : Signature}
    (read : signatureOf expression tag operands = .ok signature) :
    ∃ generics : Option (List String), signature.generics = generics.getD [] ∧
      splitGenerics operands = (generics,
        [.list (signature.parameters.map writtenParameter), .symbol "->",
          .symbol signature.result, signature.body]) := by
  unfold signatureOf at read
  obtain ⟨generics, rest, split⟩ : ∃ generics rest, splitGenerics operands = (generics, rest) :=
    ⟨_, _, rfl⟩
  rw [split] at read
  dsimp only at read
  split at read
  · rename_i written arrow result body
    split at read
    · rename_i parameters arrowed listed
      obtain ⟨typed, readTyped, read⟩ := ok_of_bind read
      obtain ⟨text, readResult, read⟩ := ok_of_bind read
      obtain rfl := Except.ok.inj read
      have parametersEq : written = .list (typed.map writtenParameter) := by
        cases written with
        | list items =>
            obtain rfl := Option.some.inj listed
            rw [eq_map_of_mapM eq_of_parameterOf readTyped]
        | _ => cases listed
      have arrowEq : arrow = .symbol "->" := by
        cases arrow with
        | symbol name => rw [Option.some.inj arrowed]
        | _ => cases arrowed
      rw [parametersEq, arrowEq, eq_symbol_of_symbolOf readResult] at split
      exact ⟨generics, rfl, split⟩
    · cases read
  · cases read

theorem body_sublist_of_signatureOf {tag : String} {signature : Signature}
    (read : signatureOf expression tag operands = .ok signature) :
    [signature.body].Sublist operands := by
  have last : ∀ first second third : Expr,
      [signature.body].Sublist [first, second, third, signature.body] := by simp
  obtain ⟨generics, _, split⟩ := splitGenerics_of_signatureOf read
  rcases operands_of_splitGenerics split with ⟨_, rfl⟩ | ⟨symbol, names, _, _, rfl⟩
  · exact last _ _ _
  · exact (last _ _ _).cons _

/-- The `lambda` of a signature weighs no more than what the signature was read from,
but for the list itself and its first word, and declares the same names. -/
theorem toLambda_eq (signature : Signature) : signature.toLambda =
    .list (.symbol "lambda" :: (if signature.isGeneric then [signature.genericSymbol] else []) ++
      [.list (signature.parameters.map writtenParameter), .symbol "->", .symbol signature.result,
        signature.body]) := rfl

theorem toLambda_of_signatureOf {tag : String} {signature : Signature}
    (read : signatureOf expression tag operands = .ok signature) :
    signature.toLambda.weight ≤ Expr.itemsWeight operands + 2 ∧
      ∀ name ∈ signature.toLambda.declaredNames, name ∈ Expr.itemsDeclaredNames operands := by
  have own : ∀ items, Expr.ownWeight (.symbol "lambda" :: items) = 1 := fun items => rfl
  have undeclared : ∀ items, Expr.declaredName? (.symbol "lambda" :: items) = none :=
    fun items => rfl
  rw [toLambda_eq]
  obtain ⟨generics, named, split⟩ := splitGenerics_of_signatureOf read
  rcases operands_of_splitGenerics split with ⟨rfl, rfl⟩ | ⟨symbol, names, _, _, rfl⟩
  · have plain : signature.isGeneric = false := by simp [Signature.isGeneric, named]
    simp only [plain, Bool.false_eq_true, if_false, List.cons_append, List.nil_append, Expr.weight,
      Expr.itemsWeight, own, Expr.declaredNames, Expr.itemsDeclaredNames, undeclared]
    exact ⟨by omega, by simp⟩
  · by_cases generic : signature.isGeneric = true <;>
      simp only [generic, Bool.false_eq_true, if_true, if_false, List.cons_append,
        List.nil_append, Expr.weight, Expr.itemsWeight, own, Expr.declaredNames,
        Expr.itemsDeclaredNames, undeclared, Signature.genericSymbol]
    · exact ⟨by omega, by simp⟩
    · exact ⟨by omega, by simp⟩

/-- The declaration of a function is heavier than the variable that it is rebuilt
as. -/
theorem functionOf_fits
    (read : functionOf (.list (.symbol "def" :: operands)) operands = .ok form) :
    Fits (.list (.symbol "def" :: operands)) form := by
  cases operands with
  | nil => cases read
  | cons named operands =>
      obtain ⟨name, readName, read⟩ := ok_of_bind read
      obtain ⟨signature, readSignature, read⟩ := ok_of_bind read
      obtain rfl := Except.ok.inj read
      obtain rfl := eq_symbol_of_symbolOf readName
      obtain ⟨light, classes⟩ := toLambda_of_signatureOf readSignature
      have own : Expr.ownWeight (.symbol "def" :: .symbol name :: operands) = 4 := rfl
      have ownRebuilt :
          Expr.ownWeight [.symbol "var", .symbol name, signature.toLambda] = 1 := rfl
      refine ⟨?_, by simp [declaredName?], ?_⟩
      · simp only [parts, Expr.itemsWeight, Expr.weight, own, ownRebuilt]
        omega
      · intro part among other declared
        obtain rfl := List.mem_singleton.1 among
        have undeclared : Expr.declaredName?
          [.symbol "var", .symbol name, signature.toLambda] = none := rfl
        simp only [Expr.declaredNames, Expr.itemsDeclaredNames, undeclared, Option.toList_none,
          List.nil_append, List.append_nil] at declared ⊢
        exact List.mem_append_right _ (classes other declared)

/-! ## Forms of lists -/

theorem splitGenerics_of_callOf {callee : Expr}
    (read : callOf expression callee operands = .ok form) :
    ∃ typeArguments arguments, form = .call callee typeArguments arguments ∧
      splitGenerics operands = (typeArguments, arguments) := by
  unfold callOf at read
  split at read
  · rename_i split
    exact ⟨_, _, (Except.ok.inj read).symm, split⟩
  · rename_i split
    split at read
    · cases read
    · exact ⟨_, _, (Except.ok.inj read).symm, split⟩

theorem callOf_fits {callee : Expr} (read : callOf expression callee operands = .ok form) :
    Fits (.list (callee :: operands)) form := by
  obtain ⟨typeArguments, arguments, rfl, split⟩ := splitGenerics_of_callOf read
  have sublist : arguments.Sublist operands := by
    rcases operands_of_splitGenerics split with ⟨_, rfl⟩ | ⟨symbol, names, _, _, rfl⟩
    · exact List.Sublist.refl _
    · exact List.sublist_cons_self _ _
  exact fits_of_sublist (sublist.cons_cons callee) (by simp [declaredName?])

theorem binaryOf_fits {tag : String} {make : Expr → Expr → Form}
    (parts_make : ∀ left right, (make left right).parts = [left, right])
    (undeclared : ∀ left right, (make left right).declaredName? = none)
    (read : binaryOf expression tag make operands = .ok form) :
    Fits (.list (.symbol tag :: operands)) form := by
  unfold binaryOf at read
  split at read
  · obtain rfl := Except.ok.inj read
    exact fits_of_operands (parts_make _ _ ▸ List.Sublist.refl _) (undeclared _ _)
  · cases read

theorem classDeclOf_fits (read : classDeclOf expression operands = .ok form) :
    Fits (.list (.symbol "class" :: operands)) form := by
  unfold classDeclOf at read
  split at read
  · obtain ⟨name, readName, read⟩ := ok_of_bind read
    obtain ⟨superclass, _, read⟩ := ok_of_bind read
    obtain rfl := Except.ok.inj read
    obtain rfl := eq_symbol_of_symbolOf readName
    refine fits_of_sublist (by simp [parts]) ?_
    intro other same
    exact same
  · cases read

theorem typeDeclOf_fits (read : typeDeclOf expression operands = .ok form) :
    Fits (.list (.symbol "type" :: operands)) form := by
  have declared : ∃ name base rest, form = .typeDecl name base ∧
      operands = .symbol name :: rest := by
    unfold typeDeclOf at read
    split at read
    · obtain ⟨name, readName, readBase⟩ := ok_of_bind read
      obtain rfl := eq_symbol_of_symbolOf readName
      split at readBase
      · exact ⟨name, _, _, (Except.ok.inj readBase).symm, rfl⟩
      · obtain ⟨members, _, readBase⟩ := ok_of_bind readBase
        exact ⟨name, _, _, (Except.ok.inj readBase).symm, rfl⟩
      · cases readBase
    · cases read
  obtain ⟨name, base, rest, rfl, rfl⟩ := declared
  refine fits_of_sublist (List.nil_sublist _) ?_
  intro other same
  exact same

theorem constructOf_fits {tag : Expr} (read : constructOf expression operands = .ok form) :
    Fits (.list (tag :: operands)) form := by
  unfold constructOf at read
  split at read
  · cases read
  · obtain ⟨name, _, read⟩ := ok_of_bind read
    obtain rfl := Except.ok.inj read
    exact fits_of_operands (List.sublist_cons_self _ _) rfl

theorem superclassOf_fits {tag : Expr} (read : superclassOf expression operands = .ok form) :
    Fits (.list (tag :: operands)) form := by
  unfold superclassOf at read
  split at read
  · obtain ⟨name, _, read⟩ := ok_of_bind read
    obtain rfl := Except.ok.inj read
    exact fits_of_operands (List.nil_sublist _) rfl
  · cases read

theorem propertyOf_fits {tag : Expr} (read : propertyOf expression operands = .ok form) :
    Fits (.list (tag :: operands)) form := by
  unfold propertyOf at read
  split at read
  · obtain ⟨field, _, read⟩ := ok_of_bind read
    obtain rfl := Except.ok.inj read
    exact fits_of_operands (by simp [parts]) rfl
  · cases read

theorem variableOf_fits {tag : Expr} (read : variableOf expression operands = .ok form) :
    Fits (.list (tag :: operands)) form := by
  unfold variableOf at read
  split at read
  · obtain ⟨target, _, read⟩ := ok_of_bind read
    obtain rfl := Except.ok.inj read
    exact fits_of_operands (by simp [parts]) rfl
  · cases read

theorem blockOf_fits {tag : Expr} (read : blockOf expression operands = .ok form) :
    Fits (.list (tag :: operands)) form := by
  unfold blockOf at read
  split at read
  · cases read
  · obtain rfl := Except.ok.inj read
    exact fits_of_operands (List.Sublist.refl _) rfl

theorem branchOf_fits {tag : Expr} (read : branchOf expression operands = .ok form) :
    Fits (.list (tag :: operands)) form := by
  unfold branchOf at read
  split at read
  · obtain rfl := Except.ok.inj read
    exact fits_of_operands (List.Sublist.refl _) rfl
  · cases read

theorem typeQueryOf_fits {tag : Expr} (read : typeQueryOf expression operands = .ok form) :
    Fits (.list (tag :: operands)) form := by
  unfold typeQueryOf at read
  split at read
  · obtain rfl := Except.ok.inj read
    exact fits_of_operands (List.Sublist.refl _) rfl
  · cases read

theorem lambdaOf_fits {tag : String} {signature : Signature}
    (read : signatureOf expression tag operands = .ok signature) :
    Fits (.list (.symbol tag :: operands)) (.lambda signature) :=
  fits_of_operands (body_sublist_of_signatureOf read) rfl

theorem keywordOf_fits {tag : String}
    (read : keywordOf (.list (.symbol tag :: operands)) tag operands = .ok form) :
    Fits (.list (.symbol tag :: operands)) form := by
  unfold keywordOf at read
  split at read
  · exact typeDeclOf_fits read
  · exact classDeclOf_fits read
  · exact constructOf_fits read
  · exact superclassOf_fits read
  · exact propertyOf_fits read
  · exact variableOf_fits read
  · exact blockOf_fits read
  · exact branchOf_fits read
  · exact binaryOf_fits (fun _ _ => rfl) (fun _ _ => rfl) read
  · exact functionOf_fits read
  · obtain ⟨signature, readSignature, read⟩ := ok_of_bind read
    obtain rfl := Except.ok.inj read
    exact lambdaOf_fits readSignature
  · exact typeQueryOf_fits read
  · cases read

theorem taggedOf_fits {tag : String}
    (read : taggedOf (.list (.symbol tag :: operands)) tag operands = .ok form) :
    Fits (.list (.symbol tag :: operands)) form := by
  unfold taggedOf at read
  split at read
  · exact binaryOf_fits (fun _ _ => rfl) (fun _ _ => rfl) read
  · exact binaryOf_fits (fun _ _ => rfl) (fun _ _ => rfl) read
  · split at read
    · exact keywordOf_fits read
    · exact callOf_fits read

/-- An assignment to a field has the object of the field for a part. -/
theorem assignment_fits {tag target object value : Expr} {field : String}
    (fits : Fits target (.property object field)) :
    Fits (.list [tag, target, value]) (.assign (.property object field) value) where
  lighter := by
    have lighter := fits.lighter
    simp only [parts, Expr.itemsWeight, Expr.weight] at lighter ⊢
    omega
  declared := by simp [declaredName?]
  inner part among name listed := by
    rcases List.mem_cons.1 among with rfl | among
    · exact Expr.mem_declaredNames_of_mem (by simp)
        (fits.inner part (List.mem_singleton.2 rfl) name listed)
    · obtain rfl := List.mem_singleton.1 among
      exact Expr.mem_declaredNames_of_mem (by simp) listed

/-- **The parts of a form weigh less than the expression.** By the recursion of
classification, which looks into the target of an assignment. -/
theorem fits_of_classify (read : classify expression = .ok form) : Fits expression form := by
  fun_induction classify expression generalizing form with
  | case1 | case2 | case3 | case4 =>
      obtain rfl := Except.ok.inj read
      exact ⟨Nat.one_pos, by simp [declaredName?], by simp [parts]⟩
  | case5 | case6 | case9 | case10 | case11 => cases read
  | case7 name value =>
      obtain rfl := Except.ok.inj read
      exact fits_of_sublist (by simp [parts]) (by simp [declaredName?])
  | case8 target value _ object field found ih =>
      obtain rfl := Except.ok.inj read
      exact assignment_fits (ih found)
  | case12 tag operands => exact taggedOf_fits read
  | case13 callee operands => exact callOf_fits read

/-- The form of a list that starts with a symbol other than `set`. -/
theorem classify_tagged {tag : String} (apart : tag ≠ "set") (operands : List Expr) :
    classify (.list (.symbol tag :: operands)) =
      taggedOf (.list (.symbol tag :: operands)) tag operands := by
  unfold classify
  split
  all_goals simp_all

theorem classify_block (item : Expr) (items : List Expr) :
    classify (.list (.symbol "begin" :: item :: items)) = .ok (.block (item :: items)) := by
  rw [classify_tagged (by decide)]
  rfl

end Form

/-! ## Declarations -/

/-- The declaration of a type or class of a name stands where checking comes by: it is the
expression itself, or it stands in a part of its form. A list that only looks like one, such
as a parameter with the name `type`, does not count. -/
inductive Expr.Declares (name : String) : Expr → Prop where
  | here {expression : Expr} {form : Form} : Form.classify expression = .ok form →
      form.declaredName? = some name → Declares name expression
  | inside {expression part : Expr} {form : Form} : Form.classify expression = .ok form →
      part ∈ form.parts → Declares name part → Declares name expression

theorem Expr.Declares.mem_declaredNames {name : String} {expression : Expr}
    (declares : Declares name expression) : name ∈ expression.declaredNames := by
  induction declares with
  | here classified declared => exact (Form.fits_of_classify classified).declared name declared
  | inside classified among _ ih => exact (Form.fits_of_classify classified).inner _ among name ih

end TypedLisp
