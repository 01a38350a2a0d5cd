/-!
# Deployment platforms

The files that configure a platform, and the files in which environment variables are looked for.
-/

namespace ArchGraph.Platform

/-- Platforms by the name of the file that configures them. -/
def byConfig : List (String × String) :=
  [("vercel.json", "Vercel"), ("netlify.toml", "Netlify"), ("fly.toml", "Fly.io"),
   ("render.yaml", "Render"), ("railway.json", "Railway"), ("railway.toml", "Railway"),
   ("Dockerfile", "Docker"), ("app.yaml", "App Engine")]

/-- The platforms that a framework is deployed to unless another one is configured, by the start
of the name of the framework's configuration. -/
def byFramework : List (String × String) := [("next.config.", "Vercel")]

/-- The starts of the names of framework configurations that read the environment. -/
def frameworkConfigs : List String :=
  ["next.config.", "vite.config.", "svelte.config.", "nuxt.config.", "astro.config."]

/-- Directories whose files commonly read the environment. -/
def configDirs : List String := ["lib", "config", "utils"]

end ArchGraph.Platform
