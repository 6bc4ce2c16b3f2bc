import TypedLisp.Proofs.Classification

/-!
# Functions are read back

A declared function is checked as a variable that is bound to a `lambda`, and the `lambda`
is written from the signature of the declaration (`Signature.toLambda`). Here it is shown
that writing changes nothing: the signature that is read from the `lambda` is the one that
it was written from.

What a signature is read from is known up to the list of generic names in front
(`Form.signatureOf_eq_ok_iff`), and neither the tag nor the expression around it matters. The
list itself is taken apart at its commas, joined again and taken apart once more. Without
blanks it is joined to the very symbol that it was read from, so the operands of the `lambda`
are those of the declaration.
-/

set_option autoImplicit false

namespace TypedLisp

namespace Form

variable {expression : Expr} {signature : Signature}

/-- The signature that a form declares. -/
def signature? : Form → Option Signature
  | .functionDecl _ signature | .lambda signature => some signature
  | _ => none

/-! ## Reading signatures -/

theorem parametersOf_written (expression : Expr) (parameters : List (String × String)) :
    (parameters.map writtenParameter).mapM (parameterOf expression) = .ok parameters := by
  induction parameters with
  | nil => rfl
  | cons parameter parameters ih =>
      have read : parameterOf expression (writtenParameter parameter) = .ok parameter := rfl
      rw [List.map_cons, List.mapM_cons, read, ih]
      rfl

/-- A signature is read from operands exactly when these are, behind a list of its generic
names if it has any, what is written of its other parts. -/
theorem signatureOf_eq_ok_iff {tag : String} {operands : List Expr} :
    signatureOf expression tag operands = .ok signature ↔
      ∃ generics : Option (List String), signature.generics = generics.getD [] ∧
        splitGenerics operands = (generics,
          [.list (signature.parameters.map writtenParameter), .symbol "->",
            .symbol signature.result, signature.body]) := by
  refine ⟨splitGenerics_of_signatureOf, ?_⟩
  rintro ⟨generics, named, split⟩
  have read := parametersOf_written expression signature.parameters
  rw [signatureOf, split]
  change ((signature.parameters.map writtenParameter).mapM (parameterOf expression) >>= _) = _
  rw [read]
  change Except.ok (⟨generics.getD [], signature.parameters, signature.result,
    signature.body⟩ : Signature) = _
  rw [← named]

/-! ## Functions -/

/-- The `lambda` of a signature is read back where its operands are. -/
theorem classify_toLambda_of_signatureOf {tag : String}
    (read : signatureOf expression tag (writtenSignature signature) = .ok signature) :
    classify signature.toLambda = .ok (.lambda signature) := by
  have again : ∀ other, signatureOf other "lambda" (writtenSignature signature) = .ok signature :=
    fun _ => signatureOf_eq_ok_iff.2 (signatureOf_eq_ok_iff.1 read)
  change classify (.list (.symbol "lambda" :: writtenSignature signature)) = _
  rw [classify_tagged (by decide)]
  change (signatureOf _ "lambda" _ >>= _) = _
  rw [again]
  rfl

/-- The `lambda` of a signature without generic names is read back. -/
theorem classify_toLambda (plain : signature.generics = []) :
    classify signature.toLambda = .ok (.lambda signature) := by
  have written : writtenSignature signature =
      [.list (signature.parameters.map writtenParameter), .symbol "->", .symbol signature.result,
        signature.body] := by
    simp [writtenSignature, Signature.isGeneric, plain]
  have read := (@signatureOf_eq_ok_iff signature.toLambda signature "lambda"
    (writtenSignature signature)).2 ⟨none, plain, by rw [written]; rfl⟩
  exact classify_toLambda_of_signatureOf read

/-- The operands of a declared function are read as its signature. -/
theorem signatureOf_of_functionDecl {name : String} {operands : List Expr}
    (read : classify (.list (.symbol "def" :: .symbol name :: operands)) =
      .ok (.functionDecl name signature)) :
    signatureOf (.list (.symbol "def" :: .symbol name :: operands)) "def" operands =
      .ok signature := by
  rw [classify_tagged (by decide)] at read
  change (signatureOf _ "def" operands >>= _) = _ at read
  obtain ⟨found, declared, same⟩ := ok_of_bind read
  obtain ⟨-, rfl⟩ := Form.functionDecl.inj (Except.ok.inj same)
  exact declared

/-- **Writing a function as a `lambda` keeps its signature.** The `lambda` that is written
from the signature of a form is read as that signature, with the same generic names,
parameters, result and body, and so it is as the value of a variable without a type. -/
theorem signature_kept_by_lambda {form : Form} (blankFree : expression.BlankFree)
    (read : classify expression = .ok form) (declares : form.signature? = some signature) :
    classify signature.toLambda = .ok (.lambda signature) ∧
    ∀ name, classify (.list [.symbol "var", .symbol name, signature.toLambda]) =
      .ok (.varDecl ⟨name, none⟩ signature.toLambda) := by
  refine ⟨?_, fun name => rfl⟩
  unfold signature? at declares
  split at declares
  · rename_i name found
    obtain rfl := Option.some.inj declares
    have written := written?_of_classify blankFree (by simp) read
    obtain rfl := Option.some.inj written
    exact classify_toLambda_of_signatureOf (signatureOf_of_functionDecl read)
  · rename_i found
    obtain rfl := Option.some.inj declares
    have written := written?_of_classify blankFree (by simp) read
    obtain rfl := Option.some.inj written
    exact read
  · cases declares

/-- The list of generic names closes a bracket that was never opened and has a comma inside
brackets. -/
theorem signature_kept_by_lambda_strayBracket :
    classify strayBracket.toLambda = .ok (.lambda strayBracket) ∧
      classify (.list [.symbol "var", .symbol "pick", strayBracket.toLambda]) =
        .ok (.varDecl ⟨"pick", none⟩ strayBracket.toLambda) := by
  have declared : classify (.list [.symbol "def", .symbol "pick", .symbol "<K>,Fn<K<V,K>>>",
      .list [.list [.symbol "x", .symbol "K>"]], .symbol "->", .symbol "K>", .symbol "x"]) =
        .ok (.functionDecl "pick" strayBracket) := by
    decide +kernel
  obtain ⟨kept, bound⟩ := signature_kept_by_lambda (by decide +kernel) declared rfl
  exact ⟨kept, bound "pick"⟩

-- A list of one blank is read as an empty name, and what is written of that is no list.
example : (classify (.list [.symbol "lambda", .symbol "< >", .list [], .symbol "->", .symbol "K",
      .symbol "x"]) = .ok (.lambda ⟨[""], [], "K", .symbol "x"⟩)) ∧
    classify (Signature.toLambda ⟨[""], [], "K", .symbol "x"⟩) ≠
      .ok (.lambda ⟨[""], [], "K", .symbol "x"⟩) := by
  decide +kernel

end Form

end TypedLisp
