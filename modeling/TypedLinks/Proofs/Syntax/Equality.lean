import TypedLinks.Luau.Syntax

/-!
# Equality of syntax

Equality of expressions and types is decided part by part, and with it that of chunks. So what is
parsed from a fixed source can be compared with the chunk that is expected.
-/

namespace TypedLinks.Luau

/-! ## Expressions -/

namespace Expression

mutual

/-- Whether two expressions have the same form and the same parts. -/
def same : Expression → Expression → Bool
  | name s n, name s' n' => s = s' && n = n'
  | string s v, string s' v' => s = s' && v = v'
  | parenthesized s e, parenthesized s' e' => s = s' && same e e'
  | field s b n, field s' b' n' => s = s' && same b b' && n = n'
  | key s b k, key s' b' k' => s = s' && same b b' && same k k'
  | call s c es style, call s' c' es' style' =>
    s = s' && same c c' && sameAll es es' && style = style'
  | methodCall s r m es style, methodCall s' r' m' es' style' =>
    s = s' && same r r' && m = m' && sameAll es es' && style = style'
  | plain s k, plain s' k' => s = s' && k = k'
  | _, _ => false

def sameAll : List Expression → List Expression → Bool
  | [], [] => true
  | e :: es, f :: fs => same e f && sameAll es fs
  | _, _ => false

end

mutual

theorem same_iff (e f : Expression) : same e f = true ↔ e = f := by
  match e with
  | name .. | string .. | plain .. => cases f <;> simp [same]
  | parenthesized _ e => cases f <;> simp [same, same_iff e]
  | field _ b _ => cases f <;> simp [same, same_iff b, and_assoc]
  | key _ b k => cases f <;> simp [same, same_iff b, same_iff k, and_assoc]
  | call _ c es _ => cases f <;> simp [same, same_iff c, sameAll_iff es, and_assoc]
  | methodCall _ r _ es _ => cases f <;> simp [same, same_iff r, sameAll_iff es, and_assoc]

theorem sameAll_iff (es fs : List Expression) : sameAll es fs = true ↔ es = fs := by
  match es with
  | [] => cases fs <;> simp [sameAll]
  | e :: es => cases fs <;> simp [sameAll, same_iff e, sameAll_iff es]

end

instance : DecidableEq Expression := fun e f => decidable_of_iff _ (same_iff e f)

end Expression

/-! ## Types -/

namespace TypeNode

mutual

/-- Whether two types have the same form and the same parts. -/
def same : TypeNode → TypeNode → Bool
  | reference s m n ts, reference s' m' n' ts' => s = s' && m = m' && n = n' && sameAll ts ts'
  | packReference s n, packReference s' n' => s = s' && n = n'
  | typeof s e, typeof s' e' => s = s' && e = e'
  | function s gs ps r, function s' gs' ps' r' =>
    s = s' && gs = gs' && sameAll ps ps' && same r r'
  | composite s k ts, composite s' k' ts' => s = s' && k = k' && sameAll ts ts'
  | _, _ => false

def sameAll : List TypeNode → List TypeNode → Bool
  | [], [] => true
  | t :: ts, u :: us => same t u && sameAll ts us
  | _, _ => false

end

mutual

theorem same_iff (t u : TypeNode) : same t u = true ↔ t = u := by
  match t with
  | packReference .. | typeof .. => cases u <;> simp [same]
  | reference _ _ _ ts | composite _ _ ts => cases u <;> simp [same, sameAll_iff ts, and_assoc]
  | function _ _ ps r => cases u <;> simp [same, sameAll_iff ps, same_iff r, and_assoc]

theorem sameAll_iff (ts us : List TypeNode) : sameAll ts us = true ↔ ts = us := by
  match ts with
  | [] => cases us <;> simp [sameAll]
  | t :: ts => cases us <;> simp [sameAll, same_iff t, sameAll_iff ts]

end

instance : DecidableEq TypeNode := fun t u => decidable_of_iff _ (same_iff t u)

end TypeNode

/-! ## Chunks -/

deriving instance DecidableEq for GenericParameter, TypeDeclaration, Statement, Return, Block, Chunk

end TypedLinks.Luau
