import ArchGraph.Graph.Id
import ArchGraph.Graph.Node
import ArchGraph.Pattern.Code
/-!
# External services

The services that a project can be seen to use, by the hosts they answer on, by the names of
their environment variables, by the classes of their clients and by the packages of their
clients. A host that belongs to no known service is a service of its own.
-/

namespace ArchGraph

/-- A known service. -/
structure Service where
  slug     : String
  name     : String
  category : String
deriving DecidableEq, Repr

namespace Service

open Pattern
open Text (isWord)

/-- The known services. -/
def all : List Service :=
  [⟨"stripe", "Stripe", "payments"⟩, ⟨"openai", "OpenAI", "ai"⟩,
   ⟨"anthropic", "Anthropic", "ai"⟩, ⟨"supabase", "Supabase", "backend"⟩,
   ⟨"resend", "Resend", "email"⟩, ⟨"sendgrid", "SendGrid", "email"⟩,
   ⟨"twilio", "Twilio", "messaging"⟩, ⟨"slack", "Slack", "messaging"⟩,
   ⟨"sentry", "Sentry", "monitoring"⟩, ⟨"posthog", "PostHog", "analytics"⟩,
   ⟨"clerk", "Clerk", "auth"⟩, ⟨"github", "GitHub", "developer"⟩,
   ⟨"google", "Google", "cloud"⟩, ⟨"aws", "AWS", "cloud"⟩, ⟨"redis", "Redis", "cache"⟩,
   ⟨"postgres", "PostgreSQL", "database"⟩]

/-- The service with a short name. -/
def ofSlug? (slug : String) : Option Service := all.find? (·.slug == slug)

/-! ## Hosts -/

/-- Services by the domain of their hosts. -/
def byDomain : List (String × String) :=
  [("stripe.com", "stripe"), ("openai.com", "openai"), ("anthropic.com", "anthropic"),
   ("supabase.co", "supabase"), ("resend.com", "resend"), ("sendgrid.com", "sendgrid"),
   ("twilio.com", "twilio"), ("slack.com", "slack"), ("sentry.io", "sentry"),
   ("posthog.com", "posthog"), ("github.com", "github"), ("googleapis.com", "google"),
   ("amazonaws.com", "aws")]

/-- Hosts that are never external. -/
def localHosts : List String := ["localhost", "127.0.0.1", "0.0.0.0", "[::1]"]

/-- Whether a host is a domain or lies in it. -/
def inDomain (host domain : String) : Bool :=
  host = domain || ('.' :: domain.toList).isSuffixOf host.toList

/-- The service whose domain a host lies in. -/
def ofHost? (host : String) : Option Service :=
  (byDomain.find? fun entry => inDomain host entry.1).bind fun entry => ofSlug? entry.2

/-! ## Environment variables -/

/-- Any number of word characters. -/
def anyWord : Pattern := many isWord 0

/-- The names of the environment variables of services. The first that matches counts. -/
def byVariable : List (Pattern × String) :=
  let nextPublic := opt (lit "NEXT_PUBLIC_")
  [(nextPublic ++ lit "STRIPE_" ++ anyWord ++ anyOf ["KEY", "SECRET"], "stripe"),
   (lit "OPENAI_" ++ anyWord ++ alt (lit "KEY") (lit "ORG" ++ anyWord), "openai"),
   (lit "ANTHROPIC_" ++ anyWord ++ lit "KEY", "anthropic"),
   (opt (anyOf ["NEXT_PUBLIC_", "VITE_", "PUBLIC_"]) ++ lit "SUPABASE_" ++ anyWord ++
      anyOf ["KEY", "URL"], "supabase"),
   (lit "RESEND_" ++ anyWord ++ lit "KEY", "resend"),
   (lit "SENDGRID_" ++ anyWord ++ lit "KEY", "sendgrid"),
   (lit "TWILIO_" ++ anyWord ++ anyOf ["SID", "TOKEN", "KEY"], "twilio"),
   (lit "SLACK_" ++ anyWord ++ oneOf [lit "TOKEN", lit "WEBHOOK" ++ anyWord, lit "SECRET"],
    "slack"),
   (nextPublic ++ lit "SENTRY_" ++ anyWord ++ anyOf ["DSN", "TOKEN"], "sentry"),
   (nextPublic ++ lit "POSTHOG_" ++ anyWord ++ anyOf ["KEY", "HOST"], "posthog"),
   (nextPublic ++ lit "CLERK_" ++ anyWord ++ lit "KEY", "clerk"),
   (lit "GITHUB_" ++ anyWord ++ anyOf ["TOKEN", "SECRET", "CLIENT_ID", "APP_ID", "PRIVATE_KEY"],
    "github"),
   (lit "GOOGLE_" ++ anyWord ++ anyOf ["KEY", "SECRET", "CLIENT_ID"], "google"),
   (lit "AWS_" ++ anyWord ++
      oneOf [lit "KEY", lit "KEY_ID", lit "SECRET" ++ anyWord, lit "REGION"], "aws"),
   (oneOf
      [lit "UPSTASH_REDIS_" ++ anyWord, lit "REDIS_URL",
       lit "KV_" ++ anyWord ++ anyOf ["URL", "TOKEN"]], "redis"),
   (alt (lit "DATABASE_URL") (lit "POSTGRES_" ++ anyWord ++ anyOf ["URL", "PASSWORD"]),
    "postgres")]

/-- The service that an environment variable belongs to. -/
def ofVariable? (name : String) : Option Service :=
  let whole (p : Pattern) : Bool :=
    ((p ++ look .textEnd).matchAt? (Cursor.start name.toList)).isSome
  (byVariable.find? fun entry => whole entry.1).bind fun entry => ofSlug? entry.2

/-! ## Clients -/

/-- Services by the class of their client. -/
def byClientClass : List (String × String) :=
  [("Stripe", "stripe"), ("OpenAI", "openai"), ("Anthropic", "anthropic"), ("Resend", "resend"),
   ("Twilio", "twilio")]

/-- The service whose client is of a class. -/
def ofClientClass? (name : String) : Option Service :=
  (byClientClass.lookup name).bind ofSlug?

/-- Services that a project has at most once, by the start of their client packages' names. -/
def byClientPackage : List (String × String) :=
  [("@supabase/", "supabase"), ("@anthropic-ai/sdk", "anthropic")]

/-! ## Nodes -/

/-- The node of a known service. -/
def node (s : Service) (host : Option String) : Node :=
  ⟨Id.externalService s.slug, s.name, none, .externalService ⟨s.slug, s.category, host⟩⟩

/-- The node of a host that belongs to no known service. -/
def hostNode (host : String) : Node :=
  ⟨Id.externalService host, host, none, .externalService ⟨host, "http", some host⟩⟩

end Service
end ArchGraph
