/-!
# Frameworks, workspaces and packages

What marks a framework or the layout of a monorepo, and which packages are notable.
-/

namespace ArchGraph.Framework

/-- Frameworks by the start of the name of a file that marks them. -/
def byMarker : List (String × String) :=
  [("next.config.", "Next.js"), ("nuxt.config.", "Nuxt"), ("svelte.config.", "SvelteKit"),
   ("astro.config.", "Astro"), ("remix.config.", "Remix"), ("vite.config.", "Vite"),
   ("angular.json", "Angular"), ("Cargo.toml", "Rust"), ("go.mod", "Go"),
   ("pyproject.toml", "Python"), ("requirements.txt", "Python")]

/-- Frameworks by a package that a manifest depends on. -/
def byDependency : List (String × String) :=
  [("next", "Next.js"), ("nuxt", "Nuxt"), ("@sveltejs/kit", "SvelteKit"), ("astro", "Astro"),
   ("@remix-run/react", "Remix"), ("@angular/core", "Angular"), ("vite", "Vite"),
   ("express", "Express"), ("fastify", "Fastify"), ("hono", "Hono"), ("react", "React"),
   ("vue", "Vue"), ("svelte", "Svelte"), ("axum", "Axum"), ("actix-web", "Actix Web"),
   ("rocket", "Rocket")]

end ArchGraph.Framework

namespace ArchGraph.Workspace

/-- Monorepo tools by the file that marks them. -/
def byMarker : List (String × String) :=
  [("pnpm-workspace.yaml", "pnpm"), ("turbo.json", "turborepo"), ("nx.json", "nx"),
   ("lerna.json", "lerna")]

/-- The globs of a monorepo that declares none. -/
def defaultGlobs : List String := ["apps/*", "packages/*"]

/-- Directories whose members are libraries rather than apps. -/
def libraryDirs : List String := ["packages", "libs"]

/-- Packages that become nodes. -/
def notablePackages : List String :=
  ["@supabase/supabase-js", "@supabase/ssr", "@supabase/auth-helpers-nextjs",
   "@anthropic-ai/sdk", "openai", "stripe", "@stripe/stripe-js", "@prisma/client",
   "drizzle-orm", "next-auth", "@clerk/nextjs", "firebase", "resend", "@sendgrid/mail",
   "twilio", "@sentry/nextjs", "posthog-js", "@vercel/analytics", "@upstash/redis",
   "@trpc/server", "@tanstack/react-query", "swr", "axios", "zod", "inngest"]

end ArchGraph.Workspace
