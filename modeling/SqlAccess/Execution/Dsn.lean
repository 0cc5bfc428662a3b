import SqlAccess.Dialect.Registry
import SqlAccess.Text.Described
import SqlAccess.Text.Number
import SqlAccess.Text.Split
import SqlAccess.Text.Uppercase
import SqlAccess.Text.Utf8

/-!
# Data source names

What can be wrong with a data source name before any connection is tried. The dialect is looked up
first; then the TCP port, if one is given, has to be a number of sixteen bits, and the security
mode, if the options name one, has to be one that is known.

A name is a scheme, two slashes, the user, the host with its TCP port, and options behind a question
mark. Blanks and control characters around a name are no part of it, and neither are tabs and line
ends inside it. Options are written as in a web address: pairs with an ampersand between them, in
which a plus sign stands for a blank and a percent sign with two digits for a byte.
-/

namespace SqlAccess

/-- Why a data source name is refused. -/
inductive DsnFault where
  | invalidPort
  | unknownSecurityMode (mode : String)
  deriving DecidableEq

/-- The wording of such a fault. -/
def DsnFault.message : DsnFault → String
  | .invalidPort => "error with configuration: invalid port number"
  | .unknownSecurityMode mode =>
    "error with configuration: error with configuration: unknown value " ++ Text.described mode ++
      " for `ssl_mode`"

namespace Dsn

open SqlAccess.Text

/-- Is the character a blank or a control character? -/
def isPadding (c : Char) : Bool :=
  c ≤ ' '

/-- Is the character a tab or the end of a line? -/
def isLayout (c : Char) : Bool :=
  c == '\t' || c == '\n' || c == '\r'

/-- The name itself: without what stands around it and without the tabs and line ends inside. -/
def trimmed (dsn : List Char) : List Char :=
  ((dsn.dropWhile isPadding).reverse.dropWhile isPadding).reverse.filter (!isLayout ·)

/-- Does the character end the part of a name that tells user, host and TCP port? -/
def endsAuthority (c : Char) : Bool :=
  c == '/' || c == '?' || c == '#'

/-- The part of a name that tells user, host and TCP port. -/
def authority (dsn : List Char) : List Char :=
  match splitOnce ':' dsn with
  | some (_, '/' :: '/' :: rest) => rest.takeWhile (!endsAuthority ·)
  | _ => []

/-- The host and the TCP port: what stands behind the last at sign. -/
def hostAndPort (dsn : List Char) : List Char :=
  (((authority dsn).splitOn '@').getLast?).getD []

/-- The digits of the TCP port, which stand behind a colon and end at a backslash if there is one. A
host between brackets may hold colons of its own. -/
def portDigits (dsn : List Char) : List Char :=
  let behindHost := match hostAndPort dsn with
    | '[' :: rest => rest.dropWhile (· != ']')
    | rest => rest
  (((splitOnce ':' behindHost).map Prod.snd).getD []).takeWhile (· != '\\')

/-- The greatest TCP port. -/
def maxPort : Nat := 65535

/-- Is there a TCP port that is no number, or too great a one? -/
def hasInvalidPort (dsn : List Char) : Bool :=
  !(portDigits dsn).isEmpty && (readBounded? maxPort (portDigits dsn)).isNone

/-- The value of a digit of base sixteen. -/
def hexValue? (c : Char) : Option Nat :=
  if c.isDigit then some (c.toNat - '0'.toNat)
  else if 'a' ≤ c.toLower ∧ c.toLower ≤ 'f' then some (c.toLower.toNat - 'a'.toNat + 10)
  else none

/-- The bytes that an option's text stands for. -/
def optionBytes : List Char → List UInt8
  | [] => []
  | '%' :: a :: b :: cs =>
    match hexValue? a, hexValue? b with
    | some high, some low => UInt8.ofNat (16 * high + low) :: optionBytes cs
    | _, _ => (String.singleton '%').toUTF8.toList ++ optionBytes (a :: b :: cs)
  | c :: cs => (String.singleton (if c = '+' then ' ' else c)).toUTF8.toList ++ optionBytes cs

/-- The text that an option's text stands for. -/
def optionText (cs : List Char) : String :=
  String.ofList (decodeUtf8 (optionBytes cs))

/-- The options of a name, in order. -/
def options (dsn : List Char) : List (String × String) :=
  match splitOnce '?' (dsn.takeWhile (· != '#')) with
  | none => []
  | some (_, query) =>
    ((query.splitOn '&').filter fun pair => !pair.isEmpty).map fun pair =>
      match splitOnce '=' pair with
      | some (key, value) => (optionText key, optionText value)
      | none => (optionText pair, "")

/-- The security modes that a connection can have. -/
def securityModes : List String :=
  ["disabled", "preferred", "required", "verify_ca", "verify_identity"]

/-- The first security mode among the options that is not known, the case of ASCII letters
aside. -/
def unknownSecurityMode? (dsn : List Char) : Option String :=
  (((options dsn).filter fun option => option.1 == "ssl-mode" || option.1 == "sslmode").map
    Prod.snd).find? fun mode =>
      !securityModes.contains (String.ofList (asciiLowercase mode.toList))

/-- What is wrong with a name, as far as can be told before connecting. -/
def fault? (dsn : String) : Option DsnFault :=
  let name := trimmed dsn.toList
  if hasInvalidPort name then some .invalidPort
  else (unknownSecurityMode? name).map .unknownSecurityMode

end Dsn

end SqlAccess
