import DocGraph.Expr.Basic
import DocGraph.Text.Dotted

/-!
Attribute chains on a name, such as `os.path.join`, and the dotted names they spell.
-/
namespace DocGraph.Expr

/-- The names along an attribute chain that begins at a bare name. -/
def segments? : Expr → Option (List String)
  | .name id => some [id]
  | .attribute value attr => value.segments?.map (· ++ [attr])
  | _ => none

def dotted? (expr : Expr) : Option String := expr.segments?.map Dotted.join

def ofSegments : List String → Expr
  | [] => .name ""
  | first :: rest => rest.foldl .attribute (.name first)

/-- The attribute chain that a dotted name spells. -/
def ofDotted (path : String) : Expr := ofSegments (Dotted.parts path)

end DocGraph.Expr
