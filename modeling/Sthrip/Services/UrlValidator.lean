import Sthrip.Python.Ipaddress

set_option autoImplicit false

/-! # The URLs that requests are sent to

`services/url_validator.py`: a URL is refused when its host is, or resolves to, an internal address; the
address to connect to is looked up again. The parsers of URLs and of addresses are parameters.
-/

namespace Sthrip.UrlValidator

open Ipaddress

/-- What `urlparse` reads from a URL. -/
structure ParseResult where
  scheme : String
  username : Option String := none
  password : Option String := none
  hostname : Option String := none

/-- The address in an answer of the resolver: its text, and the address that it is the text of. -/
structure SockAddr where
  text : String
  addr : IPAddress
deriving DecidableEq

inductive UrlError
  | ValueError (detail : String)
  | SSRFBlockedError (detail : String)
  | gaierror
  /-- Another error of the resolver. -/
  | lookup (detail : String)
deriving DecidableEq

/-- The resolver, at one lookup. -/
abbrev Resolver := String → Except UrlError (List SockAddr)

/-- The parsers, and the text of an address. -/
structure Parsers where
  urlparse : String → Except UrlError ParseResult
  ip_address : String → Option IPAddress
  str : IPAddress → String

variable (parsers : Parsers)

/-- `_is_dangerous_ip` -/
def isDangerousIp (addr : IPAddress) : Bool :=
  addr.isPrivate || addr.isLoopback || addr.isReserved || addr.isLinkLocal || addr.isMulticast ||
    addr.isUnspecified

/-- A text that is there and not empty. -/
def truthy (s : Option String) : Bool := s.any fun s => s ≠ ""

/-- `_check_hostname_safe` -/
def checkHostnameSafe (hostname : String) (block_on_dns_failure : Bool) (getaddrinfo : Resolver) :
    Except UrlError Unit :=
  match parsers.ip_address hostname with
  | some addr =>
      if isDangerousIp addr then
        throw (.SSRFBlockedError s!"URL must not target private/internal IP: {hostname}")
      else pure ()
  | none =>
      match getaddrinfo hostname with
      | .ok results =>
          results.forM fun sockaddr => do
            let text := sockaddr.text
            if isDangerousIp sockaddr.addr then
              throw (.SSRFBlockedError s!"URL hostname '{hostname}' resolves to private/internal IP {text}")
      | .error .gaierror =>
          if block_on_dns_failure then
            throw (.SSRFBlockedError s!"DNS resolution failed for hostname '{hostname}'")
          else pure ()
      | .error e => throw e

def allowedSchemes (enforce_https : Bool) : List String :=
  if enforce_https then ["https"] else ["http", "https"]

/-- `validate_url_target` -/
def validateUrlTarget (environment url : String) (enforce_https : Option Bool)
    (block_on_dns_failure : Bool) (getaddrinfo : Resolver) : Except UrlError String := do
  let parsed ← parsers.urlparse url
  let allowed_schemes := allowedSchemes (enforce_https.getD (environment ≠ "dev"))
  if truthy parsed.username || truthy parsed.password then
    throw (.ValueError "Webhook URL must not contain credentials (user:pass@host is not allowed)")
  else if parsed.scheme ∉ allowed_schemes then
    throw (.ValueError ("URL must use " ++ "/".intercalate allowed_schemes ++ ", got " ++ parsed.scheme))
  else if truthy parsed.hostname = false then
    throw (.ValueError "URL must have a valid hostname")
  else
    checkHostnameSafe parsers (parsed.hostname.getD "") block_on_dns_failure getaddrinfo
    return url

/-- `resolve_and_validate`, with the resolver at its first lookup and at its second. -/
def resolveAndValidate (environment url : String) (enforce_https : Option Bool)
    (first second : Resolver) : Except UrlError (String × SockAddr) := do
  let validated ← validateUrlTarget parsers environment url enforce_https false first
  let parsed ← parsers.urlparse url
  match parsed.hostname with
  | none => throw .gaierror -- the validation has refused it
  | some hostname =>
      match parsers.ip_address hostname with
      | some addr => return (validated, ⟨parsers.str addr, addr⟩)
      | none =>
          let results ← second hostname
          match results.find? fun sockaddr => !isDangerousIp sockaddr.addr with
          | some sockaddr => return (validated, sockaddr)
          | none => throw (.SSRFBlockedError s!"No safe IP found for hostname '{hostname}'")

end Sthrip.UrlValidator
