/-!
# Known features

The features that are looked for first: the routes of their screens and endpoints and the names
of their tables. Routes are patterns, in which `[x]` takes one segment, `[...x]` one or more and
`[[...x]]` any number.
-/

namespace ArchGraph

/-- What makes up a feature. -/
structure FeatureDefinition where
  slug        : String
  name        : String
  description : String
  routes      : List String
  endpoints   : List String
  tables      : List String
deriving DecidableEq, Repr

namespace FeatureDefinition

/-- The known features, in the order in which they are looked for. -/
def catalog : List FeatureDefinition :=
  [{ slug := "authentication"
     name := "Authentication"
     description := "Sign-up, sign-in and session management."
     routes :=
       ["/login", "/signin", "/sign-in/[[...rest]]", "/signup", "/sign-up/[[...rest]]",
        "/register", "/logout", "/auth/[...rest]", "/forgot-password", "/reset-password"]
     endpoints :=
       ["/api/auth/[...rest]", "/auth/[...rest]"]
     tables := ["profiles", "users", "sessions", "accounts"] },
   { slug := "dashboard"
     name := "Dashboard"
     description := "Landing view for signed-in users."
     routes :=
       ["/dashboard/[[...rest]]"]
     endpoints :=
       ["/api/dashboard/[[...rest]]", "/api/stats/[[...rest]]"]
     tables := [] },
   { slug := "projects"
     name := "Projects"
     description := "Create, browse and manage projects."
     routes :=
       ["/projects/[[...rest]]"]
     endpoints :=
       ["/api/projects/[[...rest]]"]
     tables := ["projects", "project_members"] },
   { slug := "tasks"
     name := "Tasks"
     description := "Task lists and task tracking."
     routes :=
       ["/tasks/[[...rest]]", "/todos/[[...rest]]"]
     endpoints :=
       ["/api/tasks/[[...rest]]", "/api/todos/[[...rest]]"]
     tables := ["tasks", "todos"] },
   { slug := "billing"
     name := "Billing"
     description := "Plans, checkout and subscription management."
     routes :=
       ["/billing/[[...rest]]", "/pricing", "/checkout/[[...rest]]", "/subscription/[[...rest]]"]
     endpoints :=
       ["/api/billing/[[...rest]]", "/api/checkout/[[...rest]]", "/api/stripe/[[...rest]]",
        "/api/webhooks/stripe"]
     tables := ["subscriptions", "customers", "prices", "products", "invoices"] },
   { slug := "settings"
     name := "Settings"
     description := "Account and profile settings."
     routes :=
       ["/settings/[[...rest]]", "/account/[[...rest]]", "/profile/[[...rest]]"]
     endpoints :=
       ["/api/settings/[[...rest]]", "/api/account/[[...rest]]", "/api/profile/[[...rest]]"]
     tables := ["profiles", "settings", "preferences"] },
   { slug := "team"
     name := "Team Management"
     description := "Teams, members and invitations."
     routes :=
       ["/team/[[...rest]]", "/teams/[[...rest]]", "/invite/[[...rest]]"]
     endpoints :=
       ["/api/team/[[...rest]]", "/api/teams/[[...rest]]", "/api/invite/[[...rest]]"]
     tables := ["teams", "team_members", "invitations", "memberships"] },
   { slug := "chat"
     name := "Chat"
     description := "Conversations and messaging."
     routes :=
       ["/chat/[[...rest]]", "/messages/[[...rest]]"]
     endpoints :=
       ["/api/chat/[[...rest]]", "/api/messages/[[...rest]]", "/functions/v1/chat"]
     tables := ["messages", "conversations", "chats"] },
   { slug := "onboarding"
     name := "Onboarding"
     description := "First-run setup for new users."
     routes :=
       ["/onboarding/[[...rest]]", "/welcome"]
     endpoints :=
       ["/api/onboarding/[[...rest]]"]
     tables := [] },
   { slug := "notifications"
     name := "Notifications"
     description := "In-app and email notifications."
     routes :=
       ["/notifications/[[...rest]]"]
     endpoints :=
       ["/api/notifications/[[...rest]]"]
     tables := ["notifications"] },
   { slug := "admin"
     name := "Administration"
     description := "Back-office tools for operators."
     routes :=
       ["/admin/[[...rest]]"]
     endpoints :=
       ["/api/admin/[[...rest]]"]
     tables := ["audit_logs"] }]

end FeatureDefinition
end ArchGraph
