import DaoGen.Entity
import DaoGen.Text.Words

/-!
# Routes

The path at which a server answers requests for an operation of a DAO.
-/
namespace DaoGen

/-- The route of an operation, by its name as declared. -/
def routePath (dao : QualifiedName) (operation : String) : String :=
  "/" ++ dao.simple ++ "/" ++ Text.camelCase (columnName operation)

end DaoGen
