import TelephonySms.Find
import TelephonySms.Mms.DecodeBuffer

/-! # The host header of a request

`StringUtils` takes the host and the port out of a URL. The host is looked for in a copy
that has slashes for its backslashes, the port in the URL itself.
-/

namespace TelephonySms.Mms

namespace StringUtils

open Find

def isChar (c : UInt8) (b : UInt8) : Bool := b == c

def getProtocolFromURL (url : Octets) : Octets :=
  match findWord (ascii "://") url with
  | some pos => url.take pos
  | none => []

def replaceBackslash (b : UInt8) : UInt8 := if b = 0x5c then 0x2f else b

def getHostnameFromURL (url : Octets) : Octets :=
  if url = [] then
    []
  else
    let tempUrl := url.map replaceBackslash
    let posStart := ((findWord (ascii "://") tempUrl).map (· + 3)).getD 0
    let posStart := (findFrom (fun b => b != 0x2f) tempUrl posStart).getD posStart
    let posEnd := least (findFrom (isChar 0x3a) tempUrl posStart)
      (least (findFrom (isChar 0x2f) tempUrl posStart) (findFrom (isChar 0x3f) tempUrl posStart))
    match posEnd with
    | some posEnd => (tempUrl.drop posStart).take (posEnd - posStart)
    | none => tempUrl.drop posStart

def getPortFromURL (url : Octets) : Octets :=
  let protocol := getProtocolFromURL url
  let hostname := getHostnameFromURL url
  let start :=
    if protocol = [] then hostname.length
    else protocol.length + (ascii "://").length + hostname.length
  match findFrom (isChar 0x3a) url start with
  | none => []
  | some posStart =>
      match least (findFrom (isChar 0x2f) url start) (findFrom (isChar 0x3f) url start) with
      | none => url.drop (posStart + 1)
      | some posEnd =>
          if posStart > posEnd then [] else (url.drop (posStart + 1)).take (posEnd - posStart - 1)

def getHostnameWithPortFromURL (url : Octets) : Octets :=
  let hostname := getHostnameFromURL url
  if hostname = [] then
    hostname
  else
    let port := getPortFromURL url
    if port = [] then hostname else hostname ++ (ascii ":" ++ port)

end StringUtils

/-- A character that ends a host, in the URL or in its copy. -/
def EndsHost (b : UInt8) : Prop := b = 0x3a ∨ b = 0x2f ∨ b = 0x3f ∨ b = 0x5c

instance (b : UInt8) : Decidable (EndsHost b) := by
  unfold EndsHost
  infer_instance

/-- `scheme://host[:port][/path][?query]` -/
structure Url where
  scheme : Octets
  host : Octets
  port : Option Octets
  path : Option Octets
  query : Option Octets
  scheme_ne : scheme ≠ []
  scheme_free : ∀ b ∈ scheme, ¬ EndsHost b
  host_ne : host ≠ []
  host_free : ∀ b ∈ host, ¬ EndsHost b
  port_ne : ∀ digits ∈ port, digits ≠ []
  port_free : ∀ digits ∈ port, ∀ b ∈ digits, b ≠ 0x2f ∧ b ≠ 0x3f

namespace Url

open StringUtils Find

variable (u : Url)

/-- What stands behind the port. -/
def resource : Octets :=
  u.path.elim [] (0x2f :: ·) ++ u.query.elim [] (0x3f :: ·)

def behindHost : Octets := u.port.elim [] (0x3a :: ·) ++ u.resource

def text : Octets := u.scheme ++ (ascii "://" ++ (u.host ++ u.behindHost))

def hostHeader : Octets := u.host ++ u.port.elim [] (ascii ":" ++ ·)

theorem not_mem_of_free {w : Octets} (h : ∀ b ∈ w, ¬ EndsHost b) {c : UInt8} (hc : EndsHost c) :
    c ∉ w := fun hmem => h c hmem hc

theorem map_replaceBackslash {w : Octets} (h : ∀ b ∈ w, ¬ EndsHost b) :
    w.map replaceBackslash = w := by
  have hsame : ∀ b ∈ w, replaceBackslash b = b := by
    intro b hb
    unfold replaceBackslash
    split
    · next hslash => exact absurd (Or.inr (Or.inr (Or.inr hslash))) (h b hb)
    · rfl
  rw [List.map_congr_left hsame, List.map_id']

/-- The separator of the scheme is the first. -/
theorem findWord_scheme (w : Octets) :
    findWord (ascii "://") (u.scheme ++ (ascii "://" ++ w)) = some u.scheme.length :=
  findWord_append (a := 0x3a) (w := [0x2f, 0x2f]) (not_mem_of_free u.scheme_free (Or.inl rfl))

theorem getProtocolFromURL_text : getProtocolFromURL u.text = u.scheme := by
  rw [getProtocolFromURL, text, findWord_scheme]
  exact List.take_left

/-- What stands behind the port starts with the character that ends the port. -/
theorem resource_cases :
    u.resource = [] ∨ ∃ d rest, u.resource = d :: rest ∧ (d = 0x2f ∨ d = 0x3f) := by
  unfold resource
  cases u.path with
  | some path => exact Or.inr ⟨0x2f, _, rfl, Or.inl rfl⟩
  | none =>
      cases u.query with
      | some query => exact Or.inr ⟨0x3f, _, rfl, Or.inr rfl⟩
      | none => exact Or.inl rfl

theorem behindHost_cases :
    u.behindHost = [] ∨ ∃ d rest, u.behindHost = d :: rest ∧ (d = 0x3a ∨ d = 0x2f ∨ d = 0x3f) := by
  unfold behindHost
  cases u.port with
  | some digits => exact Or.inr ⟨0x3a, _, rfl, Or.inl rfl⟩
  | none =>
      rcases u.resource_cases with hnil | ⟨d, rest, hcons, hd⟩
      · exact Or.inl hnil
      · exact Or.inr ⟨d, rest, hcons, Or.inr hd⟩

/-- Where the search for the host starts, in the URL and in its copy. -/
def front : Octets := u.scheme ++ ascii "://"

theorem length_front : u.front.length = u.scheme.length + 3 := by
  rw [front, List.length_append]
  rfl

theorem text_eq_front : u.text = u.front ++ (u.host ++ u.behindHost) := by
  rw [text, front, List.append_assoc]

theorem text_ne_nil : u.text ≠ [] := List.append_ne_nil_of_left_ne_nil u.scheme_ne _

theorem map_text : u.text.map replaceBackslash =
    u.front ++ (u.host ++ u.behindHost.map replaceBackslash) := by
  simp only [text, front, List.map_append, map_replaceBackslash u.scheme_free,
    map_replaceBackslash u.host_free, List.append_assoc]
  rfl

theorem findFrom_notSlash (w : Octets) :
    findFrom (fun b => b != 0x2f) (u.front ++ (u.host ++ w)) u.front.length =
      some u.front.length := by
  rcases List.exists_cons_of_ne_nil u.host_ne with ⟨b, host, hhost⟩
  have hb : (b != 0x2f) = true := by
    have hfree := u.host_free b (by simp [hhost])
    simp only [EndsHost, not_or] at hfree
    simpa using hfree.2.1
  rw [hhost]
  exact findFrom_eq_some (u := []) (by simp) hb

/-- The host ends where nothing follows, or with the character that follows. -/
theorem findFrom_endOfHost {p : UInt8 → Bool} (hp : ∀ b ∈ u.host, p b = false) {w : Octets}
    (hw : w = [] ∨ ∃ d rest, w = d :: rest ∧ p d = true) :
    (findFrom p (u.front ++ (u.host ++ w)) u.front.length).elim
        ((u.front ++ (u.host ++ w)).drop u.front.length)
        (fun posEnd => ((u.front ++ (u.host ++ w)).drop u.front.length).take
          (posEnd - u.front.length)) = u.host := by
  rcases hw with rfl | ⟨d, rest, rfl, hd⟩
  · rw [List.append_nil, findFrom_eq_none hp]
    exact List.drop_left
  · rw [findFrom_eq_some hp hd, Option.elim_some, List.drop_left, Nat.add_sub_cancel_left]
    exact List.take_left

theorem getHostnameFromURL_text : getHostnameFromURL u.text = u.host := by
  have hword : findWord (ascii "://") (u.front ++ (u.host ++ u.behindHost.map replaceBackslash)) =
      some u.scheme.length := by
    rw [front, List.append_assoc]
    exact u.findWord_scheme _
  unfold getHostnameFromURL
  rw [if_neg u.text_ne_nil]
  simp only [map_text, hword, Option.map_some, Option.getD_some, ← length_front,
    findFrom_notSlash, least_findFrom]
  have hhost : ∀ b ∈ u.host, (isChar 0x3a b || (isChar 0x2f b || isChar 0x3f b)) = false := by
    intro b hb
    have hfree := u.host_free b hb
    simp only [EndsHost, not_or] at hfree
    simp [isChar, hfree.1, hfree.2.1, hfree.2.2.1]
  have hbehind : u.behindHost.map replaceBackslash = [] ∨
      ∃ d rest, u.behindHost.map replaceBackslash = d :: rest ∧
        (isChar 0x3a d || (isChar 0x2f d || isChar 0x3f d)) = true := by
    rcases u.behindHost_cases with hnil | ⟨d, rest, hcons, hd⟩
    · exact Or.inl (by rw [hnil]; rfl)
    · refine Or.inr ⟨replaceBackslash d, rest.map replaceBackslash, by rw [hcons]; rfl, ?_⟩
      rcases hd with rfl | rfl | rfl <;> decide
  have hend := u.findFrom_endOfHost hhost hbehind
  cases hfound : findFrom (fun b => isChar 0x3a b || (isChar 0x2f b || isChar 0x3f b))
      (u.front ++ (u.host ++ u.behindHost.map replaceBackslash)) u.front.length with
  | none => rwa [hfound] at hend
  | some posEnd => rwa [hfound] at hend

/-- Where the search for the port starts. -/
theorem portStart : u.scheme.length + (ascii "://").length + u.host.length =
    (u.front ++ u.host).length := by
  rw [List.length_append, length_front]
  rfl

/-- Behind a host without a port no colon stands before the end of the host. -/
theorem findFrom_colon_of_cons {w rest : Octets} {d : UInt8} (hd : isChar 0x3a d = false) :
    findFrom (isChar 0x3a) (w ++ d :: rest) w.length =
      (rest.findIdx? (isChar 0x3a)).map (· + 1 + w.length) := by
  rw [findFrom_front, List.findIdx?_cons, hd]
  simp [Function.comp_def]

theorem getPortFromURL_of_port {digits : Octets} (hport : u.port = some digits) :
    getPortFromURL u.text = digits := by
  have htext : u.text = (u.front ++ u.host) ++ ((0x3a :: digits) ++ u.resource) := by
    rw [text_eq_front, behindHost, hport, List.append_assoc]
    rfl
  have hcolon : findFrom (isChar 0x3a) u.text (u.front ++ u.host).length =
      some (u.front ++ u.host).length := by
    rw [htext]
    exact findFrom_eq_some (u := []) (by simp) (by decide)
  have hdigits : ∀ b ∈ 0x3a :: digits, (isChar 0x2f b || isChar 0x3f b) = false := by
    intro b hb
    rcases List.mem_cons.1 hb with rfl | hmem
    · decide
    · have hfree := u.port_free digits hport b hmem
      simp [isChar, hfree.1, hfree.2]
  have hdrop : u.text.drop ((u.front ++ u.host).length + 1) = digits ++ u.resource := by
    rw [htext, List.cons_append, List.drop_append]
    simp
  unfold getPortFromURL
  simp only [getProtocolFromURL_text, getHostnameFromURL_text, if_neg u.scheme_ne, portStart,
    least_findFrom, hcolon, hdrop]
  rcases u.resource_cases with hnil | ⟨d, rest, hcons, hd⟩
  · rw [htext, hnil, List.append_nil, findFrom_eq_none hdigits, List.append_nil]
  · have hend : (isChar 0x2f d || isChar 0x3f d) = true := by
      rcases hd with rfl | rfl <;> decide
    rw [htext, hcons, findFrom_eq_some hdigits hend]
    have hlt : ¬ (u.front ++ u.host).length >
        (u.front ++ u.host).length + (0x3a :: digits).length := by omega
    have hlen : (u.front ++ u.host).length + (0x3a :: digits).length -
        (u.front ++ u.host).length - 1 = digits.length := by
      rw [List.length_cons]
      omega
    simp only [if_neg hlt, hlen]
    exact List.take_left

theorem getPortFromURL_of_none (hport : u.port = none) : getPortFromURL u.text = [] := by
  have htext : u.text = (u.front ++ u.host) ++ u.resource := by
    rw [text_eq_front, behindHost, hport, List.append_assoc]
    rfl
  unfold getPortFromURL
  simp only [getProtocolFromURL_text, getHostnameFromURL_text, if_neg u.scheme_ne, portStart,
    least_findFrom]
  rw [htext]
  rcases u.resource_cases with hnil | ⟨d, rest, hcons, hd⟩
  · rw [hnil, findFrom_eq_none (by simp)]
  · have hend : (isChar 0x2f d || isChar 0x3f d) = true := by
      rcases hd with rfl | rfl <;> decide
    have hcolon : isChar 0x3a d = false := by
      rcases hd with rfl | rfl <;> decide
    have hfirst : findFrom (fun b => isChar 0x2f b || isChar 0x3f b)
        ((u.front ++ u.host) ++ d :: rest) (u.front ++ u.host).length =
          some (u.front ++ u.host).length :=
      findFrom_eq_some (u := []) (by simp) hend
    rw [hcons, findFrom_colon_of_cons hcolon, hfirst]
    cases rest.findIdx? (isChar 0x3a) with
    | none => rfl
    | some i =>
        have hlater : i + 1 + (u.front ++ u.host).length > (u.front ++ u.host).length := by omega
        simp only [Option.map_some, if_pos hlater]

/-- The host header names the host, and the port where there is one, whatever stands in the
path and in the query. -/
theorem getHostnameWithPortFromURL_text : getHostnameWithPortFromURL u.text = u.hostHeader := by
  unfold getHostnameWithPortFromURL hostHeader
  simp only [getHostnameFromURL_text, if_neg u.host_ne]
  cases hport : u.port with
  | none => simp [u.getPortFromURL_of_none hport]
  | some digits => simp [u.getPortFromURL_of_port hport, u.port_ne digits hport]

example : getHostnameWithPortFromURL (ascii "http://mmsc:80/a:b?c=d://e") = ascii "mmsc:80" := by
  decide

end Url

end TelephonySms.Mms
