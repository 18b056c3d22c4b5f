import BuildMatrix.Registry.Host
import BuildMatrix.Text.Literal

/-!
# URLs

A URL is read into its normal form: the scheme in lower case, the host in its one form, no default
number behind it, dot segments resolved, and everything that may not stand in a component
percent-encoded. Credentials are dropped. A request sends the path and the query; the fragment is
kept for messages only.
-/

namespace BuildMatrix.Registry

/-- A URL in normal form. -/
structure Url where
  /-- The scheme, in lower case. -/
  scheme : List Char
  /-- The host and the number behind its colon, unless that is the scheme's own; absent when there
  is no host part. -/
  authority : Option (List Char)
  /-- The path, encoded. -/
  path : List Char
  /-- The query, encoded. -/
  query : Option (List Char)
  /-- The fragment, encoded. -/
  fragment : Option (List Char)
deriving DecidableEq

namespace Url

/-- Schemes with a host and a path of segments, with their own numbers. -/
def specialSchemes : List (List Char × Option Nat) :=
  [("http".toList, some 80), ("https".toList, some 443), ("ws".toList, some 80),
    ("wss".toList, some 443), ("ftp".toList, some 21), ("file".toList, none)]

/-- The characters that are encoded in a fragment. -/
def inFragmentSet (c : Char) : Bool :=
  isControl c || c ∈ [' ', '"', '<', '>', '\x60']

/-- The characters that are encoded in a query; a special scheme adds the apostrophe. -/
def inQuerySet (special : Bool) (c : Char) : Bool :=
  isControl c || c ∈ [' ', '"', '#', '<', '>'] || (special && c = '\x27')

/-- The characters that are encoded in a path segment. -/
def inPathSet (c : Char) : Bool :=
  isControl c || c ∈ [' ', '"', '#', '<', '>', '?', '^', '\x60', '\x7b', '\x7d']

/-- A text without control characters and spaces at its ends, and without tabs and line breaks. -/
def stripped (text : List Char) : List Char :=
  let isEdge (c : Char) : Bool := c.toNat ≤ 0x20
  ((text.dropWhile isEdge).reverse.dropWhile isEdge).reverse.filter fun c =>
    c ∉ ['\t', '\n', '\r']

/-- A scheme in lower case, and the text after its colon. -/
def scheme? (text : List Char) : Option (List Char × List Char) :=
  let isSchemeChar (c : Char) : Bool := c.isAlphanum || c ∈ ['+', '-', '.']
  match text.takeWhile isSchemeChar, text.dropWhile isSchemeChar with
  | first :: rest, ':' :: after =>
    if first.isAlpha then some ((first :: rest).map Char.toLower, after) else none
  | _, _ => none

/-- A path segment that stands for its own directory. -/
def isSingleDot (segment : List Char) : Bool :=
  segment.map Char.toLower ∈ [".", "%2e"].map String.toList

/-- A path segment that stands for the directory above. -/
def isDoubleDot (segment : List Char) : Bool :=
  segment.map Char.toLower ∈ ["..", ".%2e", "%2e.", "%2e%2e"].map String.toList

/-- Resolve dot segments in front of the segments kept so far, which are in reverse. -/
def resolveSegments : (kept : List (List Char)) → List (List Char) → List (List Char)
  | kept, [] => kept.reverse
  | kept, [last] =>
    if isDoubleDot last then ([] :: kept.drop 1).reverse
    else if isSingleDot last then ([] :: kept).reverse
    else (encode inPathSet last :: kept).reverse
  | kept, segment :: rest =>
    if isDoubleDot segment then resolveSegments (kept.drop 1) rest
    else if isSingleDot segment then resolveSegments kept rest
    else resolveSegments (encode inPathSet segment :: kept) rest

/-- The normal form of a path; in special schemes a backslash separates like a slash. -/
def normalPath (special : Bool) (text : List Char) : List Char :=
  let slashed := if special then text.map fun c => if c = '\\' then '/' else c else text
  let relative := (Text.after? ['/'] slashed).getD slashed
  (resolveSegments [] (List.splitOn '/' relative)).flatMap fun segment => '/' :: segment

/-- The number behind a host's colon, which is kept unless it is missing or the scheme's own. -/
def hostNumber? (own : Option Nat) (digits : List Char) : Option (List Char) :=
  if digits.isEmpty then some []
  else
    (Text.readNumeral? digits).bind fun value =>
      if 65535 < value then none
      else if own = some value then some []
      else some (':' :: Text.numeral value)

/-- The text before the first colon outside brackets, and the text from it on. -/
def cutNumber (bracketed : Bool) : List Char → List Char × List Char
  | [] => ([], [])
  | c :: rest =>
    if c = ':' ∧ bracketed = false then ([], c :: rest)
    else
      let (host, number) := cutNumber (c = '[' || (bracketed && c ≠ ']')) rest
      (c :: host, number)

variable (asciiName? : List Char → Option (List Char))

/-- The host of an authority and its number. There is no number without a host, and a special scheme
needs one. -/
def authority? (special : Bool) (own : Option Nat) (text : List Char) : Option (List Char) := do
  let located := ((text.reverse.takeWhile (· ≠ '@')).reverse)
  let (host, number) := cutNumber false located
  if host.isEmpty ∧ (special ∨ ¬ number.isEmpty) then none
  else
    let host ← Host.read? asciiName? special host
    let number ← hostNumber? own (number.drop 1)
    some (host ++ number)

/-- The host of a file's URL, which is left out when it is this one. -/
def fileHost? (text : List Char) : Option (List Char) :=
  if text.isEmpty then some []
  else (Host.read? asciiName? true text).map fun host =>
    if host = "localhost".toList then [] else host

/-- The text before the first of some characters, and the text from it on. -/
def cut (stops : List Char) (text : List Char) : List Char × List Char :=
  (text.takeWhile (· ∉ stops), text.dropWhile (· ∉ stops))

/-- Read a URL. -/
def parse? (text : String) : Option Url := do
  let (scheme, rest) ← scheme? (stripped text.toList)
  let special := specialSchemes.find? fun entry => entry.1 = scheme
  let (hierarchy, rest) := cut ['?', '#'] rest
  let (queryPart, fragmentPart) := cut ['#'] rest
  let query := (Text.after? ['?'] queryPart).map (encode (inQuerySet special.isSome))
  let fragment := (Text.after? ['#'] fragmentPart).map (encode inFragmentSet)
  match special with
  | some (_, some own) =>
    let (located, path) := cut ['/', '\\'] (hierarchy.dropWhile (· ∈ ['/', '\\']))
    let authority ← authority? asciiName? true (some own) located
    some ⟨scheme, some authority, normalPath true path, query, fragment⟩
  | some (_, none) =>
    let slashed := hierarchy.map fun c => if c = '\\' then '/' else c
    match Text.after? ['/', '/'] slashed with
    | some located =>
      let (host, path) := cut ['/'] located
      let authority ← fileHost? asciiName? host
      some ⟨scheme, some authority, normalPath true path, query, fragment⟩
    | none => some ⟨scheme, some [], normalPath true slashed, query, fragment⟩
  | none =>
    match Text.after? ['/', '/'] hierarchy with
    | some located =>
      let (host, path) := cut ['/'] located
      let authority ← authority? asciiName? false none host
      let path := if path.isEmpty then [] else normalPath false path
      some ⟨scheme, some authority, path, query, fragment⟩
    | none =>
      let path :=
        if hierarchy.head? = some '/' then normalPath false hierarchy
        else encode isControl hierarchy
      some ⟨scheme, none, path, query, fragment⟩

/-- A URL over which the registry can be asked. -/
def isWeb (url : Url) : Bool :=
  url.scheme = "http".toList || url.scheme = "https".toList

/-- What a request for the URL names: its path and query. -/
def target (url : Url) : String :=
  String.ofList (url.path ++ (url.query.map fun query => '?' :: query).getD [])

/-- The text of a URL. -/
def render (url : Url) : String :=
  String.ofList (url.scheme ++ ':' ::
    ((url.authority.map fun authority => '/' :: '/' :: authority).getD [] ++ url.path ++
      (url.query.map fun query => '?' :: query).getD [] ++
      (url.fragment.map fun fragment => '#' :: fragment).getD []))

end Url

end BuildMatrix.Registry
