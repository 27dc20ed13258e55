import Cohort.Unicode.Age
import Cohort.Unicode.Script
import Cohort.Unicode.Segment

/-!
# Names of Unicode properties

Names are compared without case, blanks, underscores, hyphens and a leading `is`. A bare name is
that of a binary property, a general category or a script, looked for in this order. A name with a
value stands for the characters whose property has the value; the age of a character is any version
that knows it.
-/

namespace Cohort.Regex.PropertyName

open Unicode

/-- What is left of a name for comparison. -/
def normalize (name : List Char) : String :=
  let (stripped, rest) :=
    match name with
    | i :: s :: rest =>
      if i.toLower = 'i' && s.toLower = 's' then (true, rest) else (false, name)
    | _ => (false, name)
  let kept := rest.filter fun c => c.toNat < 0x80 && !(c = ' ' || c = '_' || c = '-')
  let letters := kept.map Char.toLower
  if stripped && letters = ['c'] then "isc" else .ofList letters

def sameName (norm name : String) : Bool := normalize name.toList == norm

/-- General categories that are named together. -/
def categoryGroups : List (List String × List Category) :=
  let letters : List Category := [.uppercaseLetter, .lowercaseLetter, .titlecaseLetter]
  [(["lc", "casedletter"], letters),
   (["l", "letter"], letters ++ [.modifierLetter, .otherLetter]),
   (["m", "mark", "combiningmark"], [.nonspacingMark, .spacingMark, .enclosingMark]),
   (["n", "number"], [.decimalNumber, .letterNumber, .otherNumber]),
   (["p", "punctuation", "punct"],
    [.connectorPunctuation, .dashPunctuation, .openPunctuation, .closePunctuation,
     .initialPunctuation, .finalPunctuation, .otherPunctuation]),
   (["s", "symbol"], [.mathSymbol, .currencySymbol, .modifierSymbol, .otherSymbol]),
   (["z", "separator"], [.spaceSeparator, .lineSeparator, .paragraphSeparator]),
   (["c", "other"], [.control, .format, .surrogate, .privateUse, .unassigned]),
   (["digit"], [.decimalNumber]),
   (["cntrl"], [.control])]

/-- The set of a general category. Surrogates are no characters, so that their category alone has
no set. -/
def generalCategory? (norm : String) : Option CharSet :=
  match norm with
  | "any" => some .any
  | "ascii" => some (.range 0 0x7f)
  | "assigned" => some (Category.set [.unassigned]).complement
  | _ =>
    match categoryGroups.find? (·.1.contains norm) with
    | some (_, cs) => some (Category.set cs)
    | none =>
      (Category.all.find? fun c =>
        c != .surrogate && (sameName norm c.names.1 || sameName norm c.names.2)).map
          fun c => Category.set [c]

/-- The code of the script with a name. -/
def scriptCode? (norm : String) : Option String :=
  (Script.names.find? (·.any (sameName norm))).bind List.head?

/-- The set of the property with a name among `ps`. -/
def among? (ps : List Property) (norm : String) : Option CharSet :=
  (ps.find? (·.names.any (sameName norm))).map Property.set

/-- The characters of a version, which may be given as in `6.0` or as in `V6_0`. -/
def age? (norm : String) : Option CharSet :=
  (Age.versions.find? fun v => sameName norm v.number || sameName norm v.name).map Age.upTo

/-- The set of a bare name. -/
def set? (name : List Char) : Option CharSet :=
  let norm := normalize name
  among? Property.all norm <|> generalCategory? norm <|> (scriptCode? norm).map Script.set

/-- The set of a property with a value. -/
def valueSet? (name value : List Char) : Option CharSet :=
  let value := normalize value
  match normalize name with
  | "gc" | "generalcategory" => generalCategory? value
  | "sc" | "script" => (scriptCode? value).map Script.set
  | "scx" | "scriptextensions" => (scriptCode? value).map Script.useSet
  | "age" => age? value
  | "gcb" | "graphemeclusterbreak" => among? ClusterBreak.all value
  | "wb" | "wordbreak" => among? WordBreak.all value
  | "sb" | "sentencebreak" => among? SentenceBreak.all value
  | _ => none

/-- What stands between braces, as `name`, `name=value`, `name:value` or `name!=value`: whether the
opposite is meant, and the set of the property. -/
def inBraces? (text : List Char) : Option (Bool × CharSet) :=
  match splitNotEqual text with
  | some (name, value) => (valueSet? name value).map (true, ·)
  | none =>
    let separator := if text.contains ':' then ':' else '='
    let set? :=
      match text.dropWhile (· != separator) with
      | _ :: value => valueSet? (text.takeWhile (· != separator)) value
      | [] => set? text
    set?.map (false, ·)
where
  /-- The parts around the first `!=`. -/
  splitNotEqual : List Char → Option (List Char × List Char)
    | '!' :: '=' :: value => some ([], value)
    | c :: cs => (splitNotEqual cs).map fun (name, value) => (c :: name, value)
    | [] => none

end Cohort.Regex.PropertyName
