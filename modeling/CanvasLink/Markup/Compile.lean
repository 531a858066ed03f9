import CanvasLink.Markup.Document
import CanvasLink.Markup.Script

/-!
# CanvasLink — compiling markup

Compiling is parsing and then writing the script. A batch is compiled as a whole: the first unit
that is refused fails it, so nothing runs unless every unit compiles.
-/

namespace CanvasLink.Markup

/-- The script of one unit of markup. -/
def compile (markup : String) : Except (Refusal Nat) String :=
  (Frame.parse markup).map Frame.emit

/-- The scripts of units that are numbered from `index` on. -/
def compileFrom (index : Nat) : List String → Except Error (List String)
  | [] => .ok []
  | unit :: units =>
    match compile unit with
    | .error refusal => .error (.batchUnit index refusal)
    | .ok script => (compileFrom (index + 1) units).map (script :: ·)

/-- The scripts of all units, or the refusal of the first bad one. -/
def compileBatch (units : List String) : Except Error (List String) :=
  compileFrom 0 units

end CanvasLink.Markup
