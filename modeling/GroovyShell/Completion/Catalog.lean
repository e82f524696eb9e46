/-
  GroovyShell/Completion/Catalog.lean
  ===================================
  **The members and names that are known without running anything.**

  No Groovy runs behind the shell, so members come from lists of the methods
  people reach for most.  A method that takes arguments ends with its opening
  parenthesis, one that takes none with both.
-/
import GroovyShell.Text.Basic

namespace GroovyShell

/-! ### Members by type -/

def objectMembers : List String :=
  [ "asType(", "dump()", "equals(", "getClass()", "getProperties()", "hasProperty(",
    "hashCode()", "identity(", "inspect()", "invokeMethod(", "is(", "respondsTo(", "tap(",
    "toString()", "with(" ]

def stringMembers : List String :=
  [ "capitalize()", "center(", "charAt(", "contains(", "eachLine(", "endsWith(",
    "equalsIgnoreCase(", "find(", "findAll(", "indexOf(", "isBlank()", "isEmpty()",
    "isNumber()", "lastIndexOf(", "length()", "matches(", "minus(", "multiply(", "padLeft(",
    "padRight(", "plus(", "readLines()", "replace(", "replaceAll(", "reverse()", "size()",
    "split(", "startsWith(", "strip()", "substring(", "toBigDecimal()", "toCharArray()",
    "toInteger()", "toList()", "toLong()", "toLowerCase()", "toUpperCase()", "tokenize(",
    "trim()", "uncapitalize()" ]

def listMembers : List String :=
  [ "add(", "addAll(", "any(", "clear()", "collect(", "contains(", "count(", "drop(", "each(",
    "eachWithIndex(", "every(", "find(", "findAll(", "first()", "flatten()", "get(",
    "groupBy(", "indexOf(", "inject(", "isEmpty()", "join(", "last()", "max()", "min()",
    "plus(", "remove(", "reverse()", "size()", "sort()", "sum()", "take(", "unique()",
    "withIndex()" ]

def mapMembers : List String :=
  [ "any(", "clear()", "collect(", "containsKey(", "containsValue(", "each(", "entrySet()",
    "every(", "find(", "findAll(", "get(", "getOrDefault(", "groupBy(", "isEmpty()",
    "keySet()", "put(", "putAll(", "remove(", "size()", "sort(", "subMap(", "values()" ]

def numberMembers : List String :=
  [ "abs()", "compareTo(", "doubleValue()", "downto(", "intValue()", "longValue()", "plus(",
    "power(", "step(", "times(", "toBigDecimal()", "toInteger()", "upto(" ]

def stringTypes : List String := ["String", "GString", "CharSequence"]

def listTypes : List String :=
  [ "List", "ArrayList", "LinkedList", "Collection", "Set", "HashSet", "TreeSet", "Iterable" ]

def mapTypes : List String := ["Map", "HashMap", "LinkedHashMap", "TreeMap"]

def numberTypes : List String :=
  [ "Integer", "int", "Long", "long", "Short", "short", "Byte", "byte", "BigInteger", "BigDecimal",
    "Double", "double", "Float", "float", "Number" ]

/-- The members particular to a type, which is known by the last part of its
    name.  Arrays have the members of lists. -/
def specificMembers (type : Text) : List String :=
  let simple := type.lastPart '.'
  let isOneOf (types : List String) := types.any fun t => t.toList == simple
  if simple.finishesWith ['[', ']'] then listMembers
  else if isOneOf stringTypes then stringMembers
  else if isOneOf listTypes then listMembers
  else if isOneOf mapTypes then mapMembers
  else if isOneOf numberTypes then numberMembers
  else []

def membersOf (type : Text) : List Text :=
  (specificMembers type ++ objectMembers).map String.toList

/-! ### Names every script can use -/

def scriptMethods : List String :=
  [ "print(", "printf(", "println(", "sleep(" ]

def defaultClasses : List String :=
  [ "ArrayList", "Arrays", "BigDecimal", "BigInteger", "Boolean", "Byte", "Calendar",
    "Character", "Collections", "Date", "Double", "Exception", "File", "Float", "HashMap",
    "HashSet", "IllegalArgumentException", "IllegalStateException", "Integer", "LinkedHashMap",
    "LinkedList", "List", "Long", "Map", "Math", "Object", "Random", "Runnable",
    "RuntimeException", "Set", "Short", "String", "StringBuilder", "System", "Thread",
    "TreeMap", "TreeSet", "URL", "UUID" ]

end GroovyShell
