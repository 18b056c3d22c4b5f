import BuildMatrix.Json.Document
import BuildMatrix.Resolution.Run

/-!
# Reports

A resolution is published in one of two forms. The text form is three lines, each a name, an equals
sign and a value: the versions with spaces between them, the highest one, and a matrix, which is a
JSON object on one line. The document form is one JSON object with the same values and where they
come from.
-/

namespace BuildMatrix.Report

/-- The only key of a matrix. -/
def matrixKey : String := "python-version"

/-- The characters of a matrix: an object on one line, with a space after its colon and none in the
list of versions. -/
def matrixChars (versions : VersionSet) : List Char :=
  let items := versions.toList.map fun version => Json.quote version.chars
  '\x7b' :: (Json.quote matrixKey.toList ++ ':' :: ' ' :: '[' ::
    (List.intercalate [','] items ++ [']', '\x7d']))

/-- The matrix of some versions. -/
def matrix (versions : VersionSet) : String :=
  String.ofList (matrixChars versions)

/-- A line of the text form. -/
def line (name value : String) : String :=
  name ++ "=" ++ value ++ "\n"

/-- The text form of a resolution. -/
def text (resolution : Resolution) : String :=
  line "python-versions" resolution.versions.render ++
    line "build-version" resolution.buildVersion.render ++
    line "matrix" (matrix resolution.versions)

/-- The word or key for what selected the versions. -/
def selectorName : DeclaredBy → String
  | .constraint declared => declared.key.path
  | .classifiers => "classifiers"

/-- The expression that selected the versions, where there is one. -/
def expression? : DeclaredBy → Option String
  | .constraint declared => some declared.expression
  | .classifiers => none

/-- A list of texts as a document. -/
def texts (values : List String) : Json.Document :=
  .array (values.map .string)

/-- The document of a resolution. The expression is left out where there is none, and the warnings
where there are none. -/
def document (resolution : Resolution) : Json.Document :=
  .object
    ([("versions", texts resolution.versions.texts),
      ("build_version", .string resolution.buildVersion.render),
      ("matrix", .object [(matrixKey, texts resolution.versions.texts)]),
      ("declared_by", .string (selectorName resolution.declaredBy))] ++
    ((expression? resolution.declaredBy).map fun text => ("constraint", .string text)).toList ++
    [("candidate_source", .string resolution.origin.name)] ++
    (if resolution.warnings.isEmpty then []
      else [("warnings", texts (resolution.warnings.map EndOfLifeWarning.text))]))

/-- The document form of a resolution: its document on lines of its own. -/
def json (resolution : Resolution) : String :=
  (document resolution).render ++ "\n"

/-- A resolution in a form. -/
def render (format : OutputFormat) (resolution : Resolution) : String :=
  match format with
  | .text => text resolution
  | .json => json resolution

end BuildMatrix.Report
