import TypedLisp.Proofs.TypeGrammar
import TypedLisp.Proofs.Weight

/-!
# Classification loses nothing

The form of an expression holds all that is written in it. `Form.written?` writes a form
out again, all but literals, whose values a form does not keep; each reader of operands is
undone by the writer of what it reads. So an expression whose symbols have no blanks is the
text of its form (`Form.written?_of_classify`), and no two such expressions have one form.

Blanks matter in one place: the names of a list such as `<K,V>` are read without the blanks
around them.
-/

set_option autoImplicit false

namespace TypedLisp

/-! ## Symbols -/

namespace Expr

mutual

/-- The symbols of an expression, from left to right. -/
def symbols : Expr → List String
  | .symbol name => [name]
  | .list items => itemsSymbols items
  | .number _ | .string _ | .boolean _ => []

/-- The symbols of the items of a list. -/
def itemsSymbols : List Expr → List String
  | [] => []
  | item :: items => symbols item ++ itemsSymbols items

end

/-- No symbol has a blank in it. -/
def BlankFree (expression : Expr) : Prop :=
  ∀ symbol ∈ expression.symbols, TypeText.BlankFree symbol.toList

instance (expression : Expr) : Decidable expression.BlankFree :=
  decidable_of_iff (expression.symbols.all fun symbol => symbol.toList.all (! Text.isBlank ·))
    (by simp [BlankFree, TypeText.BlankFree])

theorem mem_itemsSymbols {item : Expr} {items : List Expr} {symbol : String} (among : item ∈ items)
    (inside : symbol ∈ item.symbols) : symbol ∈ itemsSymbols items := by
  induction items with
  | nil => cases among
  | cons first items ih =>
      rcases List.mem_cons.1 among with rfl | among
      · exact List.mem_append_left _ inside
      · exact List.mem_append_right _ (ih among)

theorem BlankFree.of_mem {item : Expr} {items : List Expr} (blankFree : BlankFree (.list items))
    (among : item ∈ items) : item.BlankFree := fun symbol inside =>
  blankFree symbol (mem_itemsSymbols among inside)

theorem BlankFree.tail {item : Expr} {items : List Expr}
    (blankFree : BlankFree (.list (item :: items))) : BlankFree (.list items) :=
  fun symbol among => blankFree symbol (List.mem_append_right _ among)

end Expr

/-! ## Writing forms -/

/-- The symbol of an operation of arithmetic. -/
def Arithmetic.symbol : Arithmetic → String
  | .add => "+"
  | .subtract => "-"
  | .multiply => "*"
  | .divide => "/"

/-- The symbol of a comparison. -/
def Comparison.symbol : Comparison → String
  | .equals => "=="
  | .notEquals => "!="
  | .greaterEquals => ">="
  | .lessEquals => "<="
  | .greater => ">"
  | .less => "<"

/-- The base of a type declaration as it is written. -/
def TypeBase.written : TypeBase → Expr
  | .alias parent => .symbol parent
  | .union members => .list (.symbol "or" :: members.map .symbol)

/-- A declared name as it is written, with its type text in a list. -/
def Binding.written (binding : Binding) : Expr :=
  binding.typeText.elim (.symbol binding.name) fun text =>
    .list [.symbol binding.name, .symbol text]

/-- The target of an assignment as it is written. -/
def AssignTarget.written : AssignTarget → Expr
  | .name target => .symbol target
  | .property object field => .list [.symbol "prop", object, .symbol field]

namespace Form

/-- The symbol in front of other operands that lists generic names or type arguments, if
there are any. -/
def writtenGenerics (generics : Option (List String)) : List Expr :=
  (generics.map fun names => .symbol ("<" ++ String.intercalate "," names ++ ">")).toList

/-- The operands of `lambda` that declare a signature. -/
def writtenSignature (signature : Signature) : List Expr :=
  (if signature.isGeneric then [signature.genericSymbol] else []) ++
    [.list (signature.parameters.map writtenParameter), .symbol "->", .symbol signature.result,
      signature.body]

/-- The expression of a form. The form of a literal says only of which kind it is. -/
def written? : Form → Option Expr
  | .literal _ => none
  | .arithmetic operator left right => some (.list [.symbol operator.symbol, left, right])
  | .comparison operator left right => some (.list [.symbol operator.symbol, left, right])
  | .typeDecl name base => some (.list [.symbol "type", .symbol name, base.written])
  | .classDecl name superclass body =>
      some (.list [.symbol "class", .symbol name, .symbol (superclass.getD "null"), body])
  | .construct className arguments =>
      some (.list (.symbol "new" :: .symbol className :: arguments))
  | .super className => some (.list [.symbol "super", .symbol className])
  | .property object field => some (AssignTarget.property object field).written
  | .varDecl target value => some (.list [.symbol "var", target.written, value])
  | .identifier name => some (.symbol name)
  | .assign target value => some (.list [.symbol "set", target.written, value])
  | .block items => some (.list (.symbol "begin" :: items))
  | .branch condition _ consequent alternative =>
      some (.list [.symbol "if", condition, consequent, alternative])
  | .loop condition body => some (.list [.symbol "while", condition, body])
  | .functionDecl name signature =>
      some (.list (.symbol "def" :: .symbol name :: writtenSignature signature))
  | .lambda signature => some signature.toLambda
  | .typeOf inner => some (.list [.symbol "typeof", inner])
  | .call callee typeArguments arguments =>
      some (.list (callee :: (writtenGenerics typeArguments ++ arguments)))

/-! ## Parts of forms -/

variable {expression : Expr} {form : Form} {operands : List Expr}

theorem eq_of_bindingOf {written : Expr} {binding : Binding}
    (read : bindingOf expression written = .ok binding) : written = binding.written := by
  unfold bindingOf at read
  split at read
  · obtain rfl := Except.ok.inj read
    rfl
  · obtain ⟨name, named, read⟩ := ok_of_bind read
    obtain ⟨text, texted, read⟩ := ok_of_bind read
    obtain rfl := Except.ok.inj read
    rw [eq_symbol_of_symbolOf named, eq_symbol_of_symbolOf texted]
    rfl
  · cases read

/-- A list of names without blanks is written from the names, of which there is at least
one. -/
theorem eq_of_genericList? {symbol : String} {names : List String}
    (blankFree : TypeText.BlankFree symbol.toList)
    (found : TypeText.genericList? symbol = some names) :
    names ≠ [] ∧ symbol = "<" ++ String.intercalate "," names ++ ">" := by
  obtain ⟨inside, bracketed, rfl⟩ := Option.map_eq_some_iff.1 found
  have whole := TypeText.eq_of_bracketed? bracketed
  have inner : TypeText.BlankFree inside := fun character among =>
    blankFree character (by simp [whole, among])
  refine ⟨by simpa [TypeText.splitList] using TypeText.cutCommas_ne_nil 0 inside,
    String.toList_injective ?_⟩
  rw [whole, String.toList_append, String.toList_append,
    TypeText.toList_intercalate_splitList inner]
  rfl

/-- Splitting a list of generic names from operands loses nothing, and the list is not
empty. -/
theorem eq_append_of_splitGenerics {generics : Option (List String)} {rest : List Expr}
    (blankFree : Expr.BlankFree (.list operands))
    (split : splitGenerics operands = (generics, rest)) :
    generics ≠ some [] ∧ operands = writtenGenerics generics ++ rest := by
  rcases operands_of_splitGenerics split with ⟨rfl, rfl⟩ | ⟨symbol, names, rfl, listed, rfl⟩
  · exact ⟨by simp, rfl⟩
  · have plain := blankFree.of_mem List.mem_cons_self symbol (List.mem_singleton.2 rfl)
    obtain ⟨nonempty, same⟩ := eq_of_genericList? plain listed
    refine ⟨by simpa using nonempty, ?_⟩
    rw [same]
    rfl

theorem eq_of_signatureOf {tag : String} {signature : Signature}
    (blankFree : Expr.BlankFree (.list operands))
    (read : signatureOf expression tag operands = .ok signature) :
    operands = writtenSignature signature := by
  obtain ⟨generics, named, split⟩ := splitGenerics_of_signatureOf read
  obtain ⟨nonempty, whole⟩ := eq_append_of_splitGenerics blankFree split
  rw [whole, writtenSignature]
  congr 1
  -- No list of generic names and an empty one are the same to a signature.
  rcases generics with _ | names
  · simp [writtenGenerics, Signature.isGeneric, named]
  · have some : names ≠ [] := fun empty => nonempty (congrArg _ empty)
    simp [writtenGenerics, Signature.isGeneric, Signature.genericSymbol, named, some]

/-! ## Forms of lists -/

theorem eq_symbol_of_arithmetic {tag : String} {operator : Arithmetic}
    (read : Arithmetic.ofSymbol tag = .ok operator) : tag = operator.symbol := by
  unfold Arithmetic.ofSymbol at read
  split_ifs at read with same same same same <;> obtain rfl := Except.ok.inj read <;> exact same

theorem eq_symbol_of_comparison {tag : String} {operator : Comparison}
    (read : Comparison.ofSymbol tag = .ok operator) : tag = operator.symbol := by
  unfold Comparison.ofSymbol at read
  split_ifs at read with same same same same same same <;> obtain rfl := Except.ok.inj read <;>
    exact same

theorem written?_of_binaryOf {tag : String} {make : Expr → Expr → Form}
    (made : ∀ left right, (make left right).written? = some (.list [.symbol tag, left, right]))
    (read : binaryOf expression tag make operands = .ok form) :
    form.written? = some (.list (.symbol tag :: operands)) := by
  unfold binaryOf at read
  split at read
  · obtain rfl := Except.ok.inj read
    exact made _ _
  · cases read

theorem written?_of_callOf {callee : Expr} (blankFree : Expr.BlankFree (.list operands))
    (read : callOf expression callee operands = .ok form) :
    form.written? = some (.list (callee :: operands)) := by
  obtain ⟨typeArguments, arguments, rfl, split⟩ := splitGenerics_of_callOf read
  rw [(eq_append_of_splitGenerics blankFree split).2]
  rfl

theorem written?_of_typeDeclOf (read : typeDeclOf expression operands = .ok form) :
    form.written? = some (.list (.symbol "type" :: operands)) := by
  unfold typeDeclOf at read
  split at read
  · obtain ⟨name, named, based⟩ := ok_of_bind read
    obtain rfl := eq_symbol_of_symbolOf named
    split at based
    · obtain rfl := Except.ok.inj based
      rfl
    · obtain ⟨members, listed, based⟩ := ok_of_bind based
      obtain rfl := Except.ok.inj based
      rw [eq_map_of_mapM eq_symbol_of_symbolOf listed]
      rfl
    · cases based
  · cases read

theorem written?_of_classDeclOf (read : classDeclOf expression operands = .ok form) :
    form.written? = some (.list (.symbol "class" :: operands)) := by
  unfold classDeclOf at read
  split at read
  · obtain ⟨name, named, read⟩ := ok_of_bind read
    obtain ⟨superclass, extended, read⟩ := ok_of_bind read
    obtain rfl := Except.ok.inj read
    rw [eq_symbol_of_symbolOf named, eq_symbol_of_symbolOf extended, written?]
    by_cases root : superclass = "null" <;> simp [root]
  · cases read

theorem written?_of_constructOf (read : constructOf expression operands = .ok form) :
    form.written? = some (.list (.symbol "new" :: operands)) := by
  unfold constructOf at read
  split at read
  · cases read
  · obtain ⟨name, named, read⟩ := ok_of_bind read
    obtain rfl := Except.ok.inj read
    rw [eq_symbol_of_symbolOf named, written?]

theorem written?_of_superclassOf (read : superclassOf expression operands = .ok form) :
    form.written? = some (.list (.symbol "super" :: operands)) := by
  unfold superclassOf at read
  split at read
  · obtain ⟨name, named, read⟩ := ok_of_bind read
    obtain rfl := Except.ok.inj read
    rw [eq_symbol_of_symbolOf named, written?]
  · cases read

theorem written?_of_propertyOf (read : propertyOf expression operands = .ok form) :
    form.written? = some (.list (.symbol "prop" :: operands)) := by
  unfold propertyOf at read
  split at read
  · obtain ⟨field, named, read⟩ := ok_of_bind read
    obtain rfl := Except.ok.inj read
    rw [eq_symbol_of_symbolOf named, written?, AssignTarget.written]
  · cases read

theorem written?_of_variableOf (read : variableOf expression operands = .ok form) :
    form.written? = some (.list (.symbol "var" :: operands)) := by
  unfold variableOf at read
  split at read
  · obtain ⟨target, bound, read⟩ := ok_of_bind read
    obtain rfl := Except.ok.inj read
    rw [eq_of_bindingOf bound, written?]
  · cases read

theorem written?_of_blockOf (read : blockOf expression operands = .ok form) :
    form.written? = some (.list (.symbol "begin" :: operands)) := by
  unfold blockOf at read
  split at read
  · cases read
  · obtain rfl := Except.ok.inj read
    rfl

theorem written?_of_branchOf (read : branchOf expression operands = .ok form) :
    form.written? = some (.list (.symbol "if" :: operands)) := by
  unfold branchOf at read
  split at read
  · obtain rfl := Except.ok.inj read
    rfl
  · cases read

theorem written?_of_functionOf (blankFree : Expr.BlankFree (.list operands))
    (read : functionOf expression operands = .ok form) :
    form.written? = some (.list (.symbol "def" :: operands)) := by
  unfold functionOf at read
  split at read
  · cases read
  · obtain ⟨name, named, read⟩ := ok_of_bind read
    obtain ⟨signature, declared, read⟩ := ok_of_bind read
    obtain rfl := Except.ok.inj read
    rw [eq_symbol_of_symbolOf named, eq_of_signatureOf blankFree.tail declared, written?]

theorem written?_of_typeQueryOf (read : typeQueryOf expression operands = .ok form) :
    form.written? = some (.list (.symbol "typeof" :: operands)) := by
  unfold typeQueryOf at read
  split at read
  · obtain rfl := Except.ok.inj read
    rfl
  · cases read

theorem written?_of_keywordOf {tag : String} (blankFree : Expr.BlankFree (.list operands))
    (read : keywordOf expression tag operands = .ok form) :
    form.written? = some (.list (.symbol tag :: operands)) := by
  unfold keywordOf at read
  split at read
  · exact written?_of_typeDeclOf read
  · exact written?_of_classDeclOf read
  · exact written?_of_constructOf read
  · exact written?_of_superclassOf read
  · exact written?_of_propertyOf read
  · exact written?_of_variableOf read
  · exact written?_of_blockOf read
  · exact written?_of_branchOf read
  · exact written?_of_binaryOf (fun _ _ => rfl) read
  · exact written?_of_functionOf blankFree read
  · obtain ⟨signature, declared, read⟩ := ok_of_bind read
    obtain rfl := Except.ok.inj read
    rw [eq_of_signatureOf blankFree declared]
    rfl
  · exact written?_of_typeQueryOf read
  · cases read

theorem written?_of_taggedOf {tag : String} (blankFree : Expr.BlankFree (.list operands))
    (read : taggedOf expression tag operands = .ok form) :
    form.written? = some (.list (.symbol tag :: operands)) := by
  unfold taggedOf at read
  split at read
  · rename_i operator named
    exact written?_of_binaryOf (fun _ _ => by rw [written?, eq_symbol_of_arithmetic named]) read
  · rename_i operator named _
    exact written?_of_binaryOf (fun _ _ => by rw [written?, eq_symbol_of_comparison named]) read
  · split at read
    · exact written?_of_keywordOf blankFree read
    · exact written?_of_callOf blankFree read

/-- **The form of an expression is written as that expression.** By the recursion of
classification, which looks into the target of an assignment. -/
theorem written?_of_classify (blankFree : expression.BlankFree)
    (apart : ∀ kind, form ≠ .literal kind) (read : classify expression = .ok form) :
    form.written? = some expression := by
  fun_induction classify expression generalizing form with
  | case1 | case2 | case3 =>
      obtain rfl := Except.ok.inj read
      exact absurd rfl (apart _)
  | case4 name | case7 name value =>
      obtain rfl := Except.ok.inj read
      rfl
  | case5 | case6 | case9 | case10 | case11 => cases read
  | case8 target value _ object field found ih =>
      obtain rfl := Except.ok.inj read
      have inner := ih (blankFree.of_mem (by simp)) (by simp) found
      rw [written?, Option.some.inj inner]
  | case12 tag operands => exact written?_of_taggedOf blankFree.tail read
  | case13 callee operands => exact written?_of_callOf blankFree.tail read

/-- **Classification is faithful.** Two expressions without blanks in their symbols that have
the same form are the same, unless the form is that of a literal. -/
theorem classify_injective {first second : Expr} (firstBlankFree : first.BlankFree)
    (secondBlankFree : second.BlankFree) (classified : classify first = .ok form)
    (alike : classify second = .ok form) (apart : ∀ kind, form ≠ .literal kind) :
    first = second := by
  have firstWritten := written?_of_classify firstBlankFree apart classified
  have secondWritten := written?_of_classify secondBlankFree apart alike
  exact Option.some.inj (firstWritten.symm.trans secondWritten)

/-- The first generic name closes a bracket that was never opened, and the second has a
comma of its own. -/
def strayBracket : Signature := ⟨["K>", "Fn<K<V,K>>"], [("x", "K>")], "K>", .symbol "x"⟩

theorem classify_injective_strayBracket :
    classify (.list [.symbol "lambda", .symbol "<K>,Fn<K<V,K>>>",
        .list [.list [.symbol "x", .symbol "K>"]], .symbol "->", .symbol "K>", .symbol "x"]) =
      .ok (.lambda strayBracket) ∧
    classify strayBracket.toLambda = .ok (.lambda strayBracket) ∧
    Expr.list [.symbol "lambda", .symbol "<K>,Fn<K<V,K>>>",
        .list [.list [.symbol "x", .symbol "K>"]], .symbol "->", .symbol "K>", .symbol "x"] =
      strayBracket.toLambda := by
  have classified : classify (.list [.symbol "lambda", .symbol "<K>,Fn<K<V,K>>>",
      .list [.list [.symbol "x", .symbol "K>"]], .symbol "->", .symbol "K>", .symbol "x"]) =
        .ok (.lambda strayBracket) := by
    decide +kernel
  have alike : classify strayBracket.toLambda = .ok (.lambda strayBracket) := by
    decide +kernel
  exact ⟨classified, alike,
    classify_injective (by decide +kernel) (by decide +kernel) classified alike (by simp)⟩

-- With a blank, a list of type arguments is written in more than one way.
example : classify (.list [.symbol "f", .symbol "<K, V>"]) =
    classify (.list [.symbol "f", .symbol "<K,V>"]) := by
  decide +kernel

end Form

end TypedLisp
