/-! What the models are told to do. -/

namespace Mockup.Server

/-- Asks the vision model for a description of a design. -/
def visionPrompt : String :=
  "You are a professional UI/UX designer tasked with analyzing a UI design image.
Create a STRUCTURED, TECHNICAL DESCRIPTION that a developer can easily use to implement this design.

Focus on these aspects:
1. LAYOUT: Describe the exact grid/flex structure with specific spacing values (in pixels)
2. COMPONENTS: List all UI elements (buttons, inputs, cards) with their properties
3. COLORS: Hex codes for all colors used (background, text, buttons)
4. TYPOGRAPHY: Font families, sizes, weights, and line heights
5. INTERACTIONS: Expected behavior for interactive elements
6. DIMENSIONS: Width/height of all major containers (in pixels)

FORMAT YOUR RESPONSE AS A STRUCTURED TECHNICAL SPECIFICATION LIST WITH HIERARCHICAL SECTIONS.
INCLUDE TECHNICAL DETAILS A DEVELOPER NEEDS, NOT GENERAL DESCRIPTIONS.
"

def codegenPreface : String :=
  "You are an Angular developer tasked with implementing a UI exactly as specified.

DO NOT EXPLAIN THE CODE OR PROVIDE EXPLANATIONS - JUST WRITE THE ACTUAL IMPLEMENTATION CODE.

TECHNICAL SPECIFICATIONS:
"

def codegenTask : String :=
  "

YOUR TASK:
Generate production-ready Angular component files based on these exact specifications.

Create the following Angular component files:

1. TypeScript component file
2. HTML template
3. SCSS styles

Return ONLY the code blocks like this:
```typescript
// Your TypeScript code here
```

```html
<!-- Your HTML code here -->
```

```scss
/* Your SCSS code here */
```

IMPORTANT:
- Do not include any explanations or comments outside of code blocks
- Strictly use Angular Material components where appropriate
- Follow Angular best practices
- Include proper typing and form validation

JUST GENERATE THE CODE FILES - NO EXPLANATION NEEDED.
"

/-- Asks the code model for the sources of a described design. -/
def codegenPrompt (description : String) : String := codegenPreface ++ description ++ codegenTask

end Mockup.Server
