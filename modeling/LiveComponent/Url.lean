import LiveComponent.Url.Address
import LiveComponent.Url.Domain
import LiveComponent.Url.Percent

namespace LiveComponent

/-!
# Web addresses

An address is read leniently, as browsers do, and written in its normal form.  Only addresses of the
secure web protocol are kept in parts; of others it matters whether they are well formed.
-/

/-- Why a text is no address. -/
inductive UrlError where
  | emptyHost
  | badDomain
  | badPort
  | badFourBytes
  | badEightGroups
  | badHostCharacter
  | relative
deriving DecidableEq, Repr

/-- The wording of the reason. -/
def UrlError.message : UrlError → Text
  | emptyHost => "empty host"
  | badDomain => "invalid international domain name"
  | badPort => "invalid port number"
  | badFourBytes => "invalid IPv4 address"
  | badEightGroups => "invalid IPv6 address"
  | badHostCharacter => "invalid domain character"
  | relative => "relative URL without a base"

/-- An address in its parts. -/
structure Url where
  scheme : Text
  /-- User name and password with the sign that ends them. -/
  userinfo : Text
  host : Text
  port : Option Nat
  path : Text
  query : Option Text
  fragment : Option Text
deriving DecidableEq, Repr

namespace Url

/-! ## Cleaning -/

/-- A character that is dropped at the ends of an address. -/
def isEdge (c : Char) : Bool :=
  c.toNat ≤ 0x20

/-- A character that is dropped anywhere in an address. -/
def isBreak (c : Char) : Bool :=
  c == '\t' || c == '\n' || c == '\r'

/-- The text without characters that do not count. -/
def clean (text : Text) : Text :=
  (((text.dropWhile isEdge).reverse.dropWhile isEdge).reverse).filter fun c => !isBreak c

/-! ## Schemes -/

/-- A character of a scheme. -/
def isSchemePart (c : Char) : Bool :=
  c.isAlphanum || c == '+' || c == '-' || c == '.'

/-- The scheme in lower case and the text after its colon. -/
def splitScheme? (text : Text) : Option (Text × Text) :=
  let scheme := text.takeWhile isSchemePart
  match text.drop scheme.length with
  | ':' :: rest =>
    if scheme.head?.any Char.isAlpha then some (scheme.map Char.toLower, rest) else none
  | _ => none

/-- The schemes with hosts and paths, and their ports. -/
def knownPorts : List (String × Nat) :=
  [("http", 80), ("https", 443), ("ws", 80), ("wss", 443), ("ftp", 21)]

/-- The port of a scheme. -/
def defaultPort? (scheme : Text) : Option Nat :=
  (knownPorts.find? fun known => known.1.toList == scheme).map Prod.snd

/-- Whether the scheme is one with hosts and paths. -/
def isWeb (scheme : Text) : Bool :=
  (defaultPort? scheme).isSome

/-! ## Hosts -/

/-- A host in brackets. -/
def bracketHost? (text : Text) : Except UrlError Text :=
  match text.reverse with
  | ']' :: inner =>
    match Address.eightGroups? (inner.reverse.drop 1) with
    | some groups => .ok (['['] ++ Address.eightGroupsText groups ++ [']'])
    | none => .error .badEightGroups
  | _ => .error .badEightGroups

/-- The normal form of a host that is a domain name or a numeric address. -/
def webHost (text : Text) : Except UrlError Text :=
  if text.head? = some '[' then
    bracketHost? text
  else
    match (Text.ofBytes? (Percent.decode text)).bind Domain.toAscii? with
    | none => .error .badDomain
    | some domain =>
      if domain.isEmpty then .error .emptyHost
      else if Address.endsInNumber domain then
        match Address.fourBytes? domain with
        | some value => .ok (Address.fourBytesText value)
        | none => .error .badFourBytes
      else .ok domain

/-- The characters that the host of an unknown scheme does not hold. -/
def forbiddenInHost : Text := "\x00\t\n\r #/:<>?@[\\]^|"

/-- The normal form of the host of an unknown scheme. -/
def plainHost (text : Text) : Except UrlError Text :=
  if text.head? = some '[' then bracketHost? text
  else if text.any forbiddenInHost.contains then .error .badHostCharacter
  else .ok (Percent.encode [] text)

/-! ## Authorities -/

/-- Whether the character ends the part of an address that names the host. -/
def endsAuthority (web : Bool) (c : Char) : Bool :=
  c == '/' || c == '?' || c == '#' || (web && c == '\\')

/-- The text before the last at sign and the text after it. -/
def splitLastAt? (text : Text) : Option (Text × Text) :=
  let after := (text.reverse.takeWhile (· != '@')).reverse
  if after.length = text.length then none
  else some (text.take (text.length - after.length - 1), after)

/-- The normal form of a user name and a password. -/
def userinfoText (user : Text) : Text :=
  let name := user.takeWhile (· != ':')
  let password := user.drop (name.length + 1)
  let encoded := Percent.encode Percent.inUserinfo name ++
    (if password.isEmpty then [] else ':' :: Percent.encode Percent.inUserinfo password)
  if encoded.isEmpty then [] else encoded ++ ['@']

/-- The characters of a host up to a colon outside brackets. -/
def hostText : Bool → Text → Text
  | _, [] => []
  | inBrackets, c :: rest =>
    if c == ':' && !inBrackets then []
    else
      c :: hostText (if c == '[' then true else if c == ']' then false else inBrackets) rest

/-- A port after its colon; the port of the scheme itself is left out. -/
def port? (scheme text : Text) : Except UrlError (Option Nat) :=
  let number := Address.numberOf 10 text
  if !text.all Char.isDigit || 65535 < number then .error .badPort
  else if text.isEmpty || defaultPort? scheme = some number then .ok none
  else .ok (some number)

/-- User, host and port of an address; the flag tells whether something follows them. -/
def authority
    (scheme text : Text)
    (followed : Bool) :
    Except UrlError (Text × Text × Option Nat) := do
  let web := isWeb scheme
  let (user, rest) := (splitLastAt? text).getD ([], text)
  let userinfo := userinfoText user
  let hostPart := hostText false rest
  if hostPart.isEmpty && (web || !rest.isEmpty || (followed && text == ['@'])) then
    throw .emptyHost
  let host ← if web then webHost hostPart else plainHost hostPart
  let port ← port? scheme (rest.drop (hostPart.length + 1))
  if host.isEmpty && !userinfo.isEmpty then
    throw .emptyHost
  return (userinfo, host, port)

/-! ## Paths -/

/-- Whether a segment stands for the segment itself. -/
def isSingleDot (segment : Text) : Bool :=
  ["." , "%2e"].contains (String.ofList (segment.map Char.toLower))

/-- Whether a segment stands for the one above. -/
def isDoubleDot (segment : Text) : Bool :=
  ["..", "%2e%2e", "%2e.", ".%2e"].contains (String.ofList (segment.map Char.toLower))

/-- The segments of a path, last first, after some are done. -/
def normalSegments : List Text → List Text → List Text
  | done, [] => done
  | done, segment :: rest =>
    let close (done : List Text) : List Text := if rest.isEmpty then [] :: done else done
    if isDoubleDot segment then normalSegments (close done.tail) rest
    else if isSingleDot segment then normalSegments (close done) rest
    else normalSegments (Percent.encode Percent.inPath segment :: done) rest

/-- The normal form of a path. -/
def pathText (text : Text) : Text :=
  let path := text.map fun c => if c == '\\' then '/' else c
  let path := if path.head? = some '/' then path.drop 1 else path
  '/' :: Text.joinWith ['/'] (normalSegments [] (Text.splitAt '/' path)).reverse

/-! ## Whole addresses -/

/-- A web address after its slashes. -/
def webUrl (scheme : Text) (text : Text) : Except UrlError Url := do
  let named := text.takeWhile fun c => !endsAuthority true c
  let rest := text.drop named.length
  let (userinfo, host, port) ← authority scheme named (!rest.isEmpty)
  let beforeFragment := rest.takeWhile (· != '#')
  let path := beforeFragment.takeWhile (· != '?')
  let query := beforeFragment.drop path.length
  let fragment := rest.drop beforeFragment.length
  return {
    scheme, userinfo, host, port
    path := pathText path
    query := query.tail?.map (Percent.encode Percent.inQuery)
    fragment := fragment.tail?.map (Percent.encode Percent.inFragment) }

/-- Whether the text is a drive letter with its mark. -/
def isDriveLetter (text : Text) : Bool :=
  match text with
  | [letter, mark] => letter.isAlpha && (mark == ':' || mark == '|')
  | _ => false

/-- Whether the host of a file is well formed. -/
def checkFile (text : Text) : Except UrlError Unit :=
  match text with
  | a :: b :: rest =>
    if (a == '/' || a == '\\') && (b == '/' || b == '\\') then
      let host := rest.takeWhile fun c => !endsAuthority true c
      if host.isEmpty || isDriveLetter host then .ok ()
      else (webHost host).map fun _ => ()
    else
      .ok ()
  | _ => .ok ()

/-- Whether an address of an unknown scheme is well formed. -/
def checkOther (scheme text : Text) : Except UrlError Unit :=
  match text with
  | '/' :: '/' :: rest =>
    let named := rest.takeWhile fun c => !endsAuthority false c
    (authority scheme named (named.length < rest.length)).map fun _ => ()
  | _ => .ok ()

/-- The web address that a text stands for; none for a well-formed address of another kind. -/
def ofText (text : Text) : Except UrlError (Option Url) :=
  match splitScheme? (clean text) with
  | none => .error .relative
  | some (scheme, rest) =>
    if isWeb scheme then
      (webUrl scheme (rest.dropWhile fun c => c == '/' || c == '\\')).map some
    else if scheme = "file".toList then
      (checkFile rest).map fun _ => none
    else
      (checkOther scheme rest).map fun _ => none

/-- The normal form of an address. -/
def toText (url : Url) : Text :=
  let port : Text := match url.port with
    | some port => ':' :: Text.ofNat port
    | none => []
  let query : Text := match url.query with
    | some query => '?' :: query
    | none => []
  let fragment : Text := match url.fragment with
    | some fragment => '#' :: fragment
    | none => []
  url.scheme ++ "://".toList ++ url.userinfo ++ url.host ++ port ++ url.path ++ query ++ fragment

end Url

end LiveComponent
