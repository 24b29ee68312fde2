import LiveComponent.Proofs.RepeatedResolution
import LiveComponent.Proofs.TextParts
import LiveComponent.Url
import Mathlib.Data.List.TakeWhile

namespace LiveComponent

/-!
# Addresses at the mirror

The address of a bare package is made by putting the host of the mirror in front of the specifier, and the parameter
that names the packages to leave out behind it.  The host is read from it as it is written.  The parameter is one of
the query unless the specifier holds a number sign: then all that stands behind this belongs to the fragment.
-/

/-! ## Hosts and queries that are written in addresses -/

namespace Url

/-- A host name alone: none of its characters is blank, ends the name of a host in an address or divides it. -/
def IsPlainHost (host : Text) : Prop :=
  ∀ c ∈ host, isBlank c = false ∧ c ∉ "/\\?#@:".toList

instance (host : Text) : Decidable (IsPlainHost host) :=
  List.decidableBAll _ host

/-- The host that is written in an address, behind the scheme and its slashes. -/
def hostPart (address : Text) : Text :=
  ((address.dropWhile (· != ':')).drop 3).takeWhile fun c => !endsAuthority true c

/-- The query that is written in an address, between the first question mark and any number sign. -/
def queryPart? (address : Text) : Option Text :=
  ((address.takeWhile (· != '#')).dropWhile (· != '?')).tail?

/-- The parameters of an address: the parts of its query. -/
def parameters (address : Text) : List Text :=
  ((queryPart? address).map (Text.splitAt '&')).getD []

section Parts

variable {front text : Text}

/-- What stands in front of a path does not matter for the query. -/
theorem queryPart?_append
    (plain : ∀ c ∈ front, c ≠ '#' ∧ c ≠ '?')
    (rest : Text) :
    queryPart? (front ++ rest) = queryPart? rest := by
  have noFragment : ∀ c ∈ front, (c != '#') = true := fun c member => by simpa using (plain c member).1
  have noQuery : ∀ c ∈ front, (c != '?') = true := fun c member => by simpa using (plain c member).2
  rw [queryPart?, List.takeWhile_append_of_pos noFragment, List.dropWhile_append_of_pos noQuery, queryPart?]

/-- A text without a number sign and a question mark has no query. -/
theorem queryPart?_of_plain
    (plain : ∀ c ∈ text, c ≠ '#' ∧ c ≠ '?') :
    queryPart? text = none := by
  have none := queryPart?_append plain []
  rwa [List.append_nil] at none

/-- What stands behind a number sign does not matter for the query. -/
theorem queryPart?_append_of_mem
    (fragment : '#' ∈ text)
    (rest : Text) :
    queryPart? (text ++ rest) = queryPart? text := by
  obtain ⟨before, behind, rfl, outside⟩ := List.eq_append_cons_of_mem fragment
  have noFragment : ∀ c ∈ before, (c != '#') = true := fun c member => by
    simpa using fun same : c = '#' => outside (same ▸ member)
  have upTo (rest : Text) : (before ++ '#' :: rest).takeWhile (· != '#') = before := by
    rw [List.takeWhile_append_of_pos noFragment, List.takeWhile_cons_of_neg (by decide), List.append_nil]
  rw [queryPart?, queryPart?, List.append_assoc, List.cons_append, upTo, upTo]

/-- In front of any number sign, what stands behind the first question mark is the query. -/
theorem queryPart?_cons
    (plain : ∀ c ∈ front, c ≠ '#' ∧ c ≠ '?')
    (rest : Text) :
    queryPart? (front ++ '?' :: rest) = some (rest.takeWhile (· != '#')) := by
  rw [queryPart?_append plain, queryPart?, List.takeWhile_cons_of_pos (by decide),
    List.dropWhile_cons_of_neg (by decide), List.tail?_cons]

/-- A parameter that is put behind a text is one of its parameters, exactly if it already was or neither the text nor the
parameter holds a number sign and the parameter no ampersand. -/
theorem mem_parameters_append_iff
    (text parameter : Text) :
    parameter ∈ parameters (text ++ (if text.contains '?' then ['&'] else ['?']) ++ parameter) ↔
      parameter ∈ parameters text ∨ '#' ∉ text ∧ '#' ∉ parameter ∧ '&' ∉ parameter := by
  rw [List.append_assoc]
  by_cases fragment : '#' ∈ text
  · rw [parameters, queryPart?_append_of_mem fragment, parameters]
    simp [fragment]
  -- Without a number sign in the text the parameter is the last part of the query, as far as it holds none either.
  have last : parameters (text ++ ((if text.contains '?' then ['&'] else ['?']) ++ parameter)) =
      parameters text ++ Text.splitAt '&' (parameter.takeWhile (· != '#')) := by
    by_cases query : '?' ∈ text
    · obtain ⟨front, rest, rfl, outside⟩ := List.eq_append_cons_of_mem query
      have plain : ∀ c ∈ front, c ≠ '#' ∧ c ≠ '?' := fun c member =>
        ⟨fun same => fragment (List.mem_append_left _ (same ▸ member)), fun same => outside (same ▸ member)⟩
      have noFragment : ∀ c ∈ rest, (c != '#') = true := fun c member => by
        simpa using fun same : c = '#' =>
          fragment (List.mem_append_right front (List.mem_cons_of_mem '?' (same ▸ member)))
      have whole : rest.takeWhile (· != '#') = rest :=
        List.takeWhile_eq_self_iff.mpr noFragment
      rw [if_pos (by simp), List.append_assoc, List.cons_append, parameters, parameters, queryPart?_cons plain,
        queryPart?_cons plain, List.takeWhile_append_of_pos noFragment, whole, List.singleton_append,
        List.takeWhile_cons_of_pos (by decide)]
      exact Text.splitAt_append_cons '&' rest _
    · have plain : ∀ c ∈ text, c ≠ '#' ∧ c ≠ '?' := fun c member =>
        ⟨fun same => fragment (same ▸ member), fun same => query (same ▸ member)⟩
      rw [if_neg (by simpa using query), parameters, parameters, queryPart?_of_plain plain, List.singleton_append,
        queryPart?_cons plain]
      rfl
  rw [last, List.mem_append]
  refine or_congr_right ⟨fun member => ?_, fun ⟨_, noFragment, noMark⟩ => ?_⟩
  · obtain ⟨noMark, within⟩ := Text.of_mem_splitAt member
    refine ⟨fragment, fun inside => ?_, noMark⟩
    have shown := List.mem_takeWhile_imp (within inside)
    cases shown
  · have all : ∀ c ∈ parameter, (c != '#') = true := fun c member => by
      simpa using fun same : c = '#' => noFragment (same ▸ member)
    have whole : parameter.takeWhile (· != '#') = parameter :=
      List.takeWhile_eq_self_iff.mpr all
    rw [whole, Text.splitAt_of_free noMark]
    exact List.mem_singleton_self parameter

end Parts

/-! ## Reading addresses -/

section Reading

variable {host : Text}

theorem IsPlainHost.ne
    (plain : IsPlainHost host)
    {c : Char}
    (divides : c ∈ "/\\?#@:".toList) :
    c ∉ host :=
  fun member => (plain c member).2 divides

/-- No character of a plain host ends the part of the address that names it. -/
theorem IsPlainHost.endsAuthority_eq_false
    (plain : IsPlainHost host)
    {c : Char}
    (member : c ∈ host) :
    endsAuthority true c = false := by
  have different (mark : Char) (divides : mark ∈ "/\\?#@:".toList) : c ≠ mark := fun same =>
    plain.ne divides (same ▸ member)
  have slash := different '/' (by decide)
  have backslash := different '\\' (by decide)
  have query := different '?' (by decide)
  have fragment := different '#' (by decide)
  simp [endsAuthority, slash, backslash, query, fragment]

/-- The host of an address is written up to the first slash. -/
theorem hostPart_eq
    (plain : IsPlainHost host)
    (rest : Text) :
    hostPart ("https://".toList ++ host ++ '/' :: rest) = host := by
  have inside : ∀ c ∈ host, (!endsAuthority true c) = true := fun c member => by
    rw [plain.endsAuthority_eq_false member]
    rfl
  have shape : hostPart ("https://".toList ++ host ++ '/' :: rest) =
      (host ++ '/' :: rest).takeWhile fun c => !endsAuthority true c := by
    rw [List.append_assoc]
    rfl
  rw [shape, List.takeWhile_append_of_pos inside, List.takeWhile_cons_of_neg (by decide), List.append_nil]

/-- The host of an address starts neither a query nor a fragment. -/
theorem queryPart?_address
    (plain : IsPlainHost host)
    (rest : Text) :
    queryPart? ("https://".toList ++ host ++ '/' :: rest) = queryPart? ('/' :: rest) := by
  have noMark : "https://".toList.all (fun c => c != '#' && c != '?') = true := by decide
  have schemePlain : ∀ c ∈ "https://".toList, c ≠ '#' ∧ c ≠ '?' := fun c member => by
    simpa using List.all_eq_true.mp noMark c member
  refine queryPart?_append (fun c member => ?_) _
  rcases List.mem_append.mp member with inScheme | inHost
  · exact schemePlain c inScheme
  · exact ⟨fun same => plain.ne (c := '#') (by decide) (same ▸ inHost),
      fun same => plain.ne (c := '?') (by decide) (same ▸ inHost)⟩

/-- Cleaning an address leaves the host and the slash behind it as they are. -/
theorem exists_clean_eq
    (plain : IsPlainHost host)
    (rest : Text) :
    ∃ cleaned, clean ("https://".toList ++ host ++ '/' :: rest) = "https://".toList ++ host ++ '/' :: cleaned := by
  have start : ("https://".toList ++ host ++ '/' :: rest).dropWhile isEdge = "https://".toList ++ host ++ '/' :: rest :=
    List.dropWhile_cons_of_neg (by decide)
  have stop (front : Text) : (front ++ '/' :: rest).reverse.dropWhile isEdge =
      rest.reverse.dropWhile isEdge ++ '/' :: front.reverse := by
    rw [List.reverse_append, List.reverse_cons, List.append_assoc, List.singleton_append, List.dropWhile_append]
    split
    next empty =>
      rw [List.dropWhile_cons_of_neg (by decide), List.isEmpty_iff.mp empty, List.nil_append]
    next =>
      rfl
  have schemeUnbroken : ∀ c ∈ "https://".toList, (!isBreak c) = true := List.all_eq_true.mp (by decide)
  have unbroken : ∀ c ∈ "https://".toList ++ host, (!isBreak c) = true := by
    intro c member
    rcases List.mem_append.mp member with scheme | inside
    · exact schemeUnbroken c scheme
    · have solid := (plain c inside).1
      cases broken : isBreak c with
      | false => rfl
      | true =>
          simp only [isBreak, Bool.or_eq_true, beq_iff_eq] at broken
          rcases broken with (rfl | rfl) | rfl <;> cases solid
  refine ⟨(rest.reverse.dropWhile isEdge).reverse.filter fun c => !isBreak c, ?_⟩
  rw [clean, start, stop, List.reverse_append, List.reverse_cons, List.reverse_reverse, List.append_assoc,
    List.singleton_append, List.filter_append, List.filter_eq_self.mpr unbroken, List.filter_cons_of_pos (by decide)]

/-- Without a colon all of a text is a host. -/
theorem hostText_of_free
    {text : Text}
    (free : ':' ∉ text)
    (inBrackets : Bool) :
    hostText inBrackets text = text := by
  induction text generalizing inBrackets with
  | nil =>
      rfl
  | cons c text inductionHypothesis =>
      have different : c ≠ ':' := fun same => free (same ▸ List.mem_cons_self)
      rw [hostText, if_neg (by simp [different]), inductionHypothesis fun member => free (List.mem_cons_of_mem c member)]

/-- A plain host alone names no user and no port. -/
theorem authority_of_plain
    (plain : IsPlainHost host)
    (named : host ≠ [])
    (followed : Bool) :
    authority "https".toList host followed = (webHost host).map fun name => ([], name, none) := by
  have noUser : splitLastAt? host = none := by
    have all : ∀ c ∈ host.reverse, (c != '@') = true := fun c member => by
      simpa using fun same : c = '@' => plain.ne (by decide) (same ▸ List.mem_reverse.mp member)
    have whole : host.reverse.takeWhile (· != '@') = host.reverse :=
      List.takeWhile_eq_self_iff.mpr all
    rw [splitLastAt?, whole, List.reverse_reverse]
    exact if_pos rfl
  have web : isWeb "https".toList = true := by decide
  have noPort : port? "https".toList [] = .ok none := by decide
  have nonempty : host.isEmpty = false := by simpa using named
  have behind : host.drop (host.length + 1) = [] := List.drop_eq_nil_of_le (Nat.le_succ _)
  unfold authority
  dsimp only
  rw [noUser, Option.getD_none, hostText_of_free (plain.ne (by decide)), behind, noPort, web, nonempty]
  cases webHost host with
  | error error => rfl
  | ok name => simp [userinfoText, Percent.encode]; rfl

/-- An address whose host is written plainly is read as one of this host, whatever its path, query and fragment are.
What is read as its query is what is written as such once the address is cleaned. -/
theorem exists_ofText_eq
    (plain : IsPlainHost host)
    (named : host ≠ [])
    (rest : Text) :
    let address := "https://".toList ++ host ++ '/' :: rest
    ∃ read : Text → Url, ofText address = (webHost host).map (fun name => some (read name)) ∧
      ∀ name, (read name).host = name ∧
        (read name).query = (queryPart? (clean address)).map (Percent.encode Percent.inQuery) := by
  intro address
  obtain ⟨cleaned, isClean⟩ := exists_clean_eq plain rest
  have isAddress : clean address = "https:".toList ++ ("//".toList ++ (host ++ '/' :: cleaned)) := by
    rw [isClean, List.append_assoc]
    rfl
  have scheme (text : Text) : splitScheme? ("https:".toList ++ text) = some ("https".toList, text) := rfl
  have web : isWeb "https".toList = true := by decide
  have slashes : ("//".toList ++ (host ++ '/' :: cleaned)).dropWhile (fun c => c == '/' || c == '\\') =
      host ++ '/' :: cleaned := by
    obtain ⟨c, others, rfl⟩ := List.exists_cons_of_ne_nil named
    have slash : c ≠ '/' := fun same => plain.ne (c := '/') (by decide) (same ▸ List.mem_cons_self)
    have backslash : c ≠ '\\' := fun same => plain.ne (c := '\\') (by decide) (same ▸ List.mem_cons_self)
    rw [List.dropWhile_append_of_pos (List.all_eq_true.mp (by decide)), List.cons_append,
      List.dropWhile_cons_of_neg (by simp [slash, backslash])]
  have unended : ∀ c ∈ host, (!endsAuthority true c) = true := fun c member => by
    rw [plain.endsAuthority_eq_false member]
    rfl
  have host_eq : (host ++ '/' :: cleaned).takeWhile (fun c => !endsAuthority true c) = host := by
    rw [List.takeWhile_append_of_pos unended, List.takeWhile_cons_of_neg (by decide), List.append_nil]
  let before := ('/' :: cleaned).takeWhile (· != '#')
  let path := before.takeWhile (· != '?')
  refine ⟨fun name => {
    scheme := "https".toList, userinfo := [], host := name, port := none
    path := pathText path
    query := (before.drop path.length).tail?.map (Percent.encode Percent.inQuery)
    fragment := (('/' :: cleaned).drop before.length).tail?.map (Percent.encode Percent.inFragment) }, ?_,
    fun name => ⟨rfl, ?_⟩⟩
  · rw [ofText, isAddress, scheme]
    dsimp only
    rw [if_pos web, slashes, webUrl]
    dsimp only
    rw [host_eq, List.drop_left, authority_of_plain plain named]
    cases webHost host with
    | error error => rfl
    | ok name => rfl
  · have behind : before.drop path.length = before.dropWhile (· != '?') := by
      have parts : path ++ before.dropWhile (· != '?') = before := List.takeWhile_append_dropWhile
      calc before.drop path.length
        _ = (path ++ before.dropWhile (· != '?')).drop path.length := by rw [parts]
        _ = before.dropWhile (· != '?') := List.drop_left
    rw [isClean, queryPart?_address plain, queryPart?]
    dsimp only
    rw [behind]

end Reading

end Url

/-! ## Bare packages -/

namespace Specifier

variable
  {config : Config}
  {specifier address : Text}

/-- The parameter that tells the mirror what to leave out. -/
def externalParameter (config : Config) : Text :=
  "external=".toList ++ external config

/-- The address at the mirror is the specifier behind the host, with the parameter behind it. -/
theorem mirrored_eq
    (config : Config)
    (specifier : Text) :
    mirrored config specifier =
      "https://".toList ++ config.mirrorHost ++
        '/' :: (specifier ++ (if specifier.contains '?' then ['&'] else ['?']) ++ externalParameter config) := by
  unfold mirrored externalParameter
  generalize "https://".toList = scheme, "external=".toList = lead
  simp

/-- A bare package without a local address is resolved to its address at the mirror. -/
theorem mirrored_of_tryResolve
    (resolved : tryResolve config specifier = .ok address)
    (bare : isAddress specifier = false)
    (remote : config.framework.shims.lookup specifier = none) :
    mirrored config specifier = address := by
  unfold tryResolve at resolved
  split at resolved
  · cases resolved
  · split at resolved
    · cases resolved
    · simpa [resolve, bare, remote] using resolved

/-- A usable configuration names a mirror. -/
theorem mirrorHost_ne_nil
    (valid : config.validate = .ok ()) :
    config.mirrorHost ≠ [] := by
  intro empty
  have blank : (Text.isBlankText config.mirrorHost || config.mirrorHost.contains '/') = true := by
    rw [empty]
    rfl
  rw [Config.validate, if_pos blank] at valid
  split at valid <;> cases valid

/-- Mirror addresses keep the framework external, exactly if the parameter comes to stand in the query.  A bare package
is resolved to an address with the host of the mirror; an address is read from it if this host alone is one, and then
has this host.  The parameter is one of those of the address, exactly if it is one of those of the specifier, or
neither of them holds a number sign and the parameter no ampersand. -/
theorem external_kept_iff
    (valid : config.validate = .ok ())
    (plain : Url.IsPlainHost config.mirrorHost)
    (resolved : tryResolve config specifier = .ok address)
    (bare : isAddress specifier = false)
    (remote : config.framework.shims.lookup specifier = none) :
    Url.hostPart address = config.mirrorHost ∧
      (Url.ofText address).map (Option.map Url.host) = (Url.webHost config.mirrorHost).map some ∧
      (∀ url, Url.ofText address = .ok (some url) →
        url.query = (Url.queryPart? (Url.clean address)).map (Percent.encode Percent.inQuery)) ∧
      (externalParameter config ∈ Url.parameters address ↔
        externalParameter config ∈ Url.parameters specifier ∨
          '#' ∉ specifier ∧ '#' ∉ externalParameter config ∧ '&' ∉ externalParameter config) := by
  have named := mirrorHost_ne_nil valid
  obtain rfl := mirrored_of_tryResolve resolved bare remote
  rw [mirrored_eq]
  obtain ⟨read, reads, parts⟩ := Url.exists_ofText_eq plain named
    (specifier ++ (if specifier.contains '?' then ['&'] else ['?']) ++ externalParameter config)
  refine ⟨Url.hostPart_eq plain _, ?_, fun url isRead => ?_, ?_⟩
  · rw [reads]
    cases Url.webHost config.mirrorHost with
    | error error => rfl
    | ok name => exact congrArg (fun host => Except.ok (some host)) (parts name).1
  · rw [reads] at isRead
    cases host : Url.webHost config.mirrorHost with
    | error error =>
        rw [host] at isRead
        cases isRead
    | ok name =>
        rw [host] at isRead
        cases isRead
        exact (parts name).2
  · rw [Url.parameters, Url.queryPart?_address plain, ← List.singleton_append, Url.queryPart?_append (by simp)]
    exact Url.mem_parameters_append_iff specifier (externalParameter config)

/-- A package is asked for with a query, with a fragment and with both.  The parameter stands in the query of the first
one only. -/
theorem external_lost_in_fragment :
    ∃ address lost late : Text,
      tryResolve {} "three?target=es2020".toList = .ok address ∧
        Url.parameters address = ["target=es2020".toList, "external=react,react-dom".toList] ∧
        tryResolve {} "lodash#chunk".toList = .ok lost ∧
        lost = "https://esm.sh/lodash#chunk?external=react,react-dom".toList ∧
        externalParameter {} ∉ Url.parameters lost ∧
        tryResolve {} "lodash?v=4#chunk".toList = .ok late ∧
        externalParameter {} ∉ Url.parameters late ∧
        Url.hostPart late = "esm.sh".toList := by
  have valid : ({} : Config).validate = .ok () := by decide +kernel
  have plain : Url.IsPlainHost ({} : Config).mirrorHost := by decide +kernel
  have lost := @external_kept_iff {} "lodash#chunk".toList _ valid plain rfl (by decide +kernel) (by decide +kernel)
  have late := @external_kept_iff {} "lodash?v=4#chunk".toList _ valid plain rfl (by decide +kernel)
    (by decide +kernel)
  refine ⟨_, _, _, rfl, ?_, rfl, ?_, fun kept => ?_, rfl, fun kept => ?_, late.1⟩
  · decide +kernel
  · decide +kernel
  · exact absurd (lost.2.2.2.mp kept) (by decide +kernel)
  · exact absurd (late.2.2.2.mp kept) (by decide +kernel)

end Specifier

end LiveComponent
