/-!
# Default patterns

The files that are reviewed where the settings do not say otherwise: the sources of web frontends,
without build output, dependencies, generated files, tests, documents and the settings of tools.
-/

namespace PerfReview

def defaultIncludes : List String := [
  "**/*.js", "**/*.jsx", "**/*.ts", "**/*.tsx", "**/*.vue", "**/*.svelte", "**/*.astro",
  "**/*.css", "**/*.scss", "**/*.less", "**/*.sass", "**/*.html"]

def defaultIgnores : List String := [
  -- build output and dependencies
  "**/node_modules/**", "**/dist/**", "**/build/**", "**/.git/**", "**/coverage/**", "**/.next/**",
  "**/.nuxt/**", "**/.svelte-kit/**", "**/.astro/**",
  -- generated and minified files
  "**/*.min.js", "**/*.bundle.js", "**/*.chunk.js", "**/*.map", "**/*.d.ts",
  -- tests
  "**/*.test.*", "**/*.spec.*", "**/__tests__/**", "**/__mocks__/**", "**/test/**", "**/tests/**",
  -- documents and examples
  "**/docs/**", "**/examples/**", "**/demo/**", "**/demos/**",
  -- settings of tools
  "**/*.config.*", "**/*.rc.*", "**/tsconfig.json", "**/package.json", "**/package-lock.json",
  "**/yarn.lock", "**/pnpm-lock.yaml",
  -- editors and caches
  "**/.vscode/**", "**/.idea/**", "**/.DS_Store", "**/.cache/**", "**/.temp/**", "**/.tmp/**",
  "**/tmp/**", "**/temp/**"]

end PerfReview
